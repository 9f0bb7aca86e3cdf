import ManaWallet.Draft.Error
import ManaWallet.Transaction

/-!
# Draft/Unlocking — one unlock for every input, in one pass

    owner without its restriction
      ├── account, anchor, nft ──▸ its chain unlocked by an earlier input ──▸ points there
      ├── ed25519, implicit ─────▸ its key signed for an earlier input ─────▸ points there
      │                                    └── no ──▸ a signature
      └── multi, restricted ─────▸ nothing unlocks it

Once an input is unlocked, so is the chain that its output belongs to.
-/

namespace ManaWallet

/-- Whether signatures are made, or only their places filled. -/
inductive SigningMode where
  | sign
  | placeholder
deriving DecidableEq, Repr

/-- An output to be consumed, and the address that has to authorize it. -/
structure Input where
  outputId : OutputId
  output : Output
  owner : Address

/-- The unlocks of the inputs so far, the latest first, with the first input of every key and chain. -/
structure Unlocked where
  unlocks : List Unlock := []
  signers : Std.HashMap SignerUid UInt16 := ∅
  chains : Std.HashMap ChainId UInt16 := ∅

namespace Unlocked

/-- The unlock that points to the input where a chain was unlocked. -/
def chainUnlock? (index : UInt16) : ChainId → Option Unlock
  | .account _ => some (.account index)
  | .anchor _ => some (.anchor index)
  | .nft _ => some (.nft index)
  | .foundry _ | .delegation _ => none

/-- The chain that consuming an output unlocks, under the name it has from then on. -/
def chainOf (input : Input) : Option ChainId :=
  (input.output.chainId?.map fun chain => chain.orOfOutputId input.outputId).filter
    ChainId.isAddressable

/-- The unlock of an input that a chain owns. -/
def unlockByChain (u : Unlocked) (index : Nat) (kind : AddressKind) (chain : ChainId) :
    Except DraftError Unlock :=
  match u.chains[chain]? with
  | none => .error (.chainNotUnlocked index chain)
  | some earlier =>
    match chainUnlock? earlier chain with
    | none => .error (.unsupportedAddress index kind)
    | some unlock => .ok unlock

/-- The signature of an owner: a real one where there is a message to sign. -/
def signatureOf (signer : Signer) (message : Option (List UInt8)) (owner : Address) :
    Except SignerError Signature :=
  match message with
  | some message => signer.sign owner message
  | none => signer.placeholder owner

/-- The unlock of an input that a key owns, with the keys that have signed then. -/
def unlockByKey (u : Unlocked) (signer : Signer) (message : Option (List UInt8)) (index : Nat)
    (owner : Address) : Except SignerError (Unlock × Std.HashMap SignerUid UInt16) := do
  let uid ← signer.uid owner
  match u.signers[uid]? with
  | some earlier => return (.reference earlier, u.signers)
  | none =>
    let signature ← signatureOf signer message owner
    return (.signature signature, u.signers.insert uid (.ofNat index))

/-- The unlock of an input, with the keys that have signed then. -/
def unlock (u : Unlocked) (signer : Signer) (message : Option (List UInt8)) (index : Nat)
    (owner : Address) : Except DraftError (Unlock × Std.HashMap SignerUid UInt16) :=
  match owner.chainId? with
  | some chain => (u.unlockByChain index owner.kind chain).map fun unlock => (unlock, u.signers)
  | none =>
    if owner.isSigned then (u.unlockByKey signer message index owner).mapError .signer
    else .error (.unsupportedAddress index owner.kind)

/-- Unlocks the next input. -/
def add (u : Unlocked) (signer : Signer) (message : Option (List UInt8)) (index : Nat)
    (input : Input) : Except DraftError Unlocked := do
  let (unlock, signers) ← u.unlock signer message index input.owner.unrestricted
  let chains := match chainOf input with
    | some chain => u.chains.insertIfNew chain (.ofNat index)
    | none => u.chains
  return ⟨unlock :: u.unlocks, signers, chains⟩

/-- Unlocks inputs in order, the first of them being number `index`. -/
def addAll (signer : Signer) (message : Option (List UInt8)) :
    Nat → Unlocked → List Input → Except DraftError Unlocked
  | _, u, [] => .ok u
  | index, u, input :: rest =>
    match u.add signer message index input with
    | .error e => .error e
    | .ok u => addAll signer message (index + 1) u rest

end Unlocked

/-- The unlocks of a transaction's inputs, or the first obstacle.  An unlock points to another by 16
bits, which limits the number of inputs. -/
def unlocksOf (signer : Signer) (mode : SigningMode) (t : Transaction) (inputs : List Input) :
    Except DraftError (List Unlock) :=
  if UInt16.size < inputs.length then .error (.tooManyInputs inputs.length)
  else
    let message := match mode with
      | .sign => some t.signingMessage.toList
      | .placeholder => none
    (Unlocked.addAll signer message 0 {} inputs).map fun u => u.unlocks.reverse

end ManaWallet
