import ManaWallet.Proofs.Standard
import ManaWallet.Proofs.Unlocking.Rule
import Mathlib.Data.Finset.Card
import Mathlib.Logic.Relation

/-!
# Proofs/Unlocking/Soundness — what a finished list of unlocks guarantees

    unlock ──points to──▸ earlier unlock ──points to──▸ … ──▸ signature

Every unlock is a signature or points to an earlier input, and following the pointers ends at a
signature (`Resolves.grounded`).  Signatures are as few as there are keys (`Resolves.signatures`).
-/

namespace ManaWallet

/-! ## First inputs -/

namespace Input

variable {κ : Type} [DecidableEq κ] {name : Input → Option κ} {inputs : List Input} {k : κ} {i j : ℕ}

/-- The first input of a name has the name, and none before it has. -/
theorem of_first (h : first name inputs k = some j) :
    ∃ input, inputs[j]? = some input ∧ name input = some k ∧ first name (inputs.take j) k = none := by
  obtain ⟨hlt, hname, hbefore⟩ := List.findIdx?_eq_some_iff_getElem.mp h
  refine ⟨inputs[j], List.getElem?_eq_getElem hlt, of_decide_eq_true hname, ?_⟩
  refine List.findIdx?_eq_none_iff.mpr fun input hinput => ?_
  obtain ⟨i, hi, rfl⟩ := List.getElem_of_mem hinput
  rw [List.length_take] at hi
  rw [List.getElem_take]
  exact Bool.eq_false_of_not_eq_true (hbefore i (by omega))

/-- The first input among the first few is the first of all. -/
theorem first_of_take (h : first name (inputs.take i) k = some j) :
    j < i ∧ first name inputs k = some j := by
  obtain ⟨hlt, -, -⟩ := List.findIdx?_eq_some_iff_getElem.mp h
  rw [List.length_take] at hlt
  refine ⟨by omega, ?_⟩
  have hsplit : first name (inputs.take i ++ inputs.drop i) k = some j := by
    rw [first, List.findIdx?_append]
    exact congrArg (Option.or · _) h
  rwa [List.take_append_drop] at hsplit

/-! ## Keys -/

/-- The keys that sign for inputs. -/
def keys (signer : Signer) (inputs : List Input) : Finset SignerUid :=
  (inputs.filterMap (signerUid? signer)).toFinset

/-- A key signs for some input exactly if it has a first one. -/
theorem mem_keys_iff {signer : Signer} {uid : SignerUid} :
    uid ∈ keys signer inputs ↔ first (signerUid? signer) inputs uid ≠ none := by
  simp [keys, first, List.findIdx?_eq_none_iff, List.mem_filterMap]

/-- A further input adds its key. -/
theorem keys_concat {signer : Signer} {input : Input} {uid : SignerUid}
    (hkey : input.signerUid? signer = some uid) :
    keys signer (inputs ++ [input]) = insert uid (keys signer inputs) := by
  simp [keys, hkey]

/-- An input that no key signs for adds none. -/
theorem keys_concat_of_none {signer : Signer} {input : Input} (hkey : input.signerUid? signer = none) :
    keys signer (inputs ++ [input]) = keys signer inputs := by
  simp [keys, hkey]

end Input

/-! ## One input -/

/-- The kind of the chain that an unlock points to. -/
def Unlock.chainKind? : Unlock → Option AddressKind
  | signature _ | reference _ => none
  | account _ => some .account
  | anchor _ => some .anchor
  | nft _ => some .nft

/-- The unlock of an owner that is a chain is of the owner's kind and holds the number. -/
theorem Unlocked.of_chainUnlock? {owner : Address} {chain : ChainId} {j : UInt16} {unlock : Unlock}
    (howner : owner.chainId? = some chain) (h : Unlocked.chainUnlock? j chain = some unlock) :
    unlock.chainKind? = some owner.kind ∧ unlock.index? = some j := by
  cases owner with
  | account | anchor | nft =>
    obtain rfl := Option.some.inj howner
    obtain rfl := Option.some.inj h
    exact ⟨rfl, rfl⟩
  | ed25519 | implicitAccountCreation | multi | restricted =>
    exact nomatch howner

namespace UnlockedBy

variable {signer : Signer} {earlier : List Input} {input : Input} {unlock : Unlock} {j : UInt16}

/-- A reference points to the first input of the key. -/
theorem of_reference (h : UnlockedBy signer earlier input (.reference j)) :
    ∃ uid, input.signerUid? signer = some uid ∧
      Input.first (Input.signerUid? signer) earlier uid = some j.toNat := by
  cases h with
  | reference hkey hfirst => exact ⟨_, hkey, hfirst⟩
  | chain hchain _ hkind =>
    obtain ⟨hkind, -⟩ := Unlocked.of_chainUnlock? hchain hkind
    exact nomatch hkind

/-- The unlock of a chain's kind points to the first input of the chain that owns the output. -/
theorem of_chainKind {kind : AddressKind} (h : UnlockedBy signer earlier input unlock)
    (hkind : unlock.chainKind? = some kind) :
    ∃ chain j, input.owner.unrestricted.chainId? = some chain ∧
      input.owner.unrestricted.kind = kind ∧ unlock.index? = some j ∧
      Input.first Input.chain? earlier chain = some j.toNat := by
  cases h with
  | signature | reference => exact nomatch hkind
  | chain hchain hfirst hunlock =>
    obtain ⟨hkind', hindex⟩ := Unlocked.of_chainUnlock? hchain hunlock
    exact ⟨_, _, hchain, Option.some.inj (hkind'.symm.trans hkind), hindex, hfirst⟩

/-- A key that is met for the first time signs. -/
theorem of_new {uid : SignerUid} (h : UnlockedBy signer earlier input unlock)
    (hkey : input.signerUid? signer = some uid)
    (hnew : Input.first (Input.signerUid? signer) earlier uid = none) : ∃ s, unlock = .signature s := by
  cases h with
  | signature s => exact ⟨s, rfl⟩
  | reference hkey' hfirst =>
    obtain rfl := Option.some.inj (hkey.symm.trans hkey')
    exact nomatch hnew.symm.trans hfirst
  | chain hchain =>
    exact nomatch (Unlocked.signerUid?_of_chainId? hchain).symm.trans hkey

/-- An unlock that points to no chain is of an owner whom a signature unlocks. -/
theorem isSigned (h : UnlockedBy signer earlier input unlock) (hkind : unlock.chainKind? = none) :
    input.owner.unrestricted.isSigned := by
  cases h with
  | signature _ hkey | reference hkey => exact (Input.signerUid?_eq_some_iff.mp hkey).1
  | chain hchain _ hunlock =>
    obtain ⟨hkind', -⟩ := Unlocked.of_chainUnlock? hchain hunlock
    exact nomatch hkind.symm.trans hkind'

/-- Whoever signs for the owner is known. -/
theorem signed (h : UnlockedBy signer earlier input unlock)
    (hsigned : input.owner.unrestricted.isSigned) :
    ∃ uid, signer.uid input.owner.unrestricted = .ok uid := by
  cases h with
  | signature _ hkey | reference hkey => exact ⟨_, (Input.signerUid?_eq_some_iff.mp hkey).2⟩
  | chain hchain =>
    cases howner : input.owner.unrestricted <;>
      simp [howner, Address.chainId?, Address.isSigned] at hchain hsigned

/-- An unlock points to an earlier input, unless it is a signature. -/
theorem points (h : UnlockedBy signer earlier input unlock) :
    (∃ s, unlock = .signature s) ∨ ∃ j, unlock.index? = some j ∧ j.toNat < earlier.length := by
  have hlt : ∀ {κ : Type} [DecidableEq κ] {name : Input → Option κ} {k : κ} {j : ℕ},
      Input.first name earlier k = some j → j < earlier.length := fun hfirst => by
    obtain ⟨_, hget, -⟩ := Input.of_first hfirst
    exact (List.getElem?_eq_some_iff.mp hget).1
  cases h with
  | signature s => exact Or.inl ⟨s, rfl⟩
  | reference _ hfirst => exact Or.inr ⟨_, rfl, hlt hfirst⟩
  | chain hchain hfirst hunlock =>
    exact Or.inr ⟨_, (Unlocked.of_chainUnlock? hchain hunlock).2, hlt hfirst⟩

/-- A signature comes with a new key, any other unlock with none. -/
theorem card_keys (h : UnlockedBy signer earlier input unlock) :
    (Input.keys signer (earlier ++ [input])).card
      = (Input.keys signer earlier).card + [unlock].countP Unlock.isSignature := by
  cases h with
  | signature s hkey hnew =>
    have hnotMem := mt Input.mem_keys_iff.mp (not_not_intro hnew)
    rw [Input.keys_concat hkey, Finset.card_insert_of_notMem hnotMem]
    rfl
  | reference hkey hfirst =>
    have hmem := Input.mem_keys_iff.mpr (hfirst ▸ Option.some_ne_none _)
    rw [Input.keys_concat hkey, Finset.insert_eq_of_mem hmem]
    rfl
  | chain hchain _ hunlock =>
    rw [Input.keys_concat_of_none (Unlocked.signerUid?_of_chainId? hchain)]
    obtain ⟨hkind, -⟩ := Unlocked.of_chainUnlock? hchain hunlock
    cases unlock with
    | signature => exact nomatch hkind
    | reference | account | anchor | nft => rfl

end UnlockedBy

/-! ## Input by input -/

namespace Resolves

variable {signer : Signer} {inputs : List Input} {unlocks : List Unlock} {unlock : Unlock}
  {input : Input} {i : ℕ}

/-- Every input has one unlock. -/
theorem length_eq (h : Resolves signer inputs unlocks) : unlocks.length = inputs.length := by
  induction h with
  | nil => rfl
  | concat _ _ ih => rw [List.length_append, List.length_append, ih]; rfl

/-- Every unlock is that of its input behind the earlier ones. -/
theorem unlockedBy (h : Resolves signer inputs unlocks) (hinput : inputs[i]? = some input)
    (hunlock : unlocks[i]? = some unlock) : UnlockedBy signer (inputs.take i) input unlock := by
  induction h with
  | nil => simp at hinput
  | @concat earlier last unlocks lastUnlock hearlier hlast ih =>
    have hlength := hearlier.length_eq
    rcases Nat.lt_trichotomy i earlier.length with hlt | rfl | hgt
    · rw [List.getElem?_append_left hlt] at hinput
      rw [List.getElem?_append_left (hlength ▸ hlt)] at hunlock
      rw [List.take_append_of_le_length (Nat.le_of_lt hlt)]
      exact ih hinput hunlock
    · obtain rfl : last = input := by simpa using hinput
      obtain rfl : lastUnlock = unlock := by simpa [← hlength] using hunlock
      simpa using hlast
    · have hout : (earlier ++ [last])[i]? = none := by
        refine List.getElem?_eq_none ?_
        rw [List.length_append, List.length_singleton]
        omega
      exact nomatch hout.symm.trans hinput

/-- The unlock of an input with what the rule says of it. -/
theorem exists_unlockedBy (h : Resolves signer inputs unlocks) (hunlock : unlocks[i]? = some unlock) :
    ∃ input, inputs[i]? = some input ∧ UnlockedBy signer (inputs.take i) input unlock := by
  obtain ⟨hlt, -⟩ := List.getElem?_eq_some_iff.mp hunlock
  rw [h.length_eq] at hlt
  exact ⟨inputs[i], List.getElem?_eq_getElem hlt, h.unlockedBy (List.getElem?_eq_getElem hlt) hunlock⟩

/-- The signer knows every owner whom a signature unlocks. -/
theorem signed (h : Resolves signer inputs unlocks) (hinput : input ∈ inputs)
    (hsigned : input.owner.unrestricted.isSigned) :
    ∃ uid, signer.uid input.owner.unrestricted = .ok uid := by
  obtain ⟨i, hi, rfl⟩ := List.getElem_of_mem hinput
  have hunlock := List.getElem?_eq_getElem (h.length_eq ▸ hi)
  exact (h.unlockedBy (List.getElem?_eq_getElem hi) hunlock).signed hsigned

/-- The first input of a key has its signature. -/
theorem signature_of_first {uid : SignerUid} {j : ℕ} (h : Resolves signer inputs unlocks)
    (hfirst : Input.first (Input.signerUid? signer) inputs uid = some j) :
    ∃ s, unlocks[j]? = some (.signature s) := by
  obtain ⟨input, hinput, hkey, hnew⟩ := Input.of_first hfirst
  obtain ⟨hlt, -⟩ := List.getElem?_eq_some_iff.mp hinput
  rw [← h.length_eq] at hlt
  have hunlock := List.getElem?_eq_getElem hlt
  obtain ⟨s, hs⟩ := (h.unlockedBy hinput hunlock).of_new hkey hnew
  exact ⟨s, hs ▸ hunlock⟩

/-- A reference points to the signature of the same key, at the first input of the key. -/
theorem reference {j : UInt16} (h : Resolves signer inputs unlocks)
    (hunlock : unlocks[i]? = some (.reference j)) :
    j.toNat < i ∧ (∃ s, unlocks[j.toNat]? = some (.signature s)) ∧
      ∃ earlier input uid, inputs[j.toNat]? = some earlier ∧ inputs[i]? = some input ∧
        signer.uid earlier.owner.unrestricted = .ok uid ∧
        signer.uid input.owner.unrestricted = .ok uid := by
  obtain ⟨input, hinput, hrule⟩ := h.exists_unlockedBy hunlock
  obtain ⟨uid, hkey, hfirst⟩ := hrule.of_reference
  obtain ⟨hlt, hall⟩ := Input.first_of_take hfirst
  obtain ⟨earlier, hearlier, hkeyEarlier, -⟩ := Input.of_first hall
  exact ⟨hlt, h.signature_of_first hall, earlier, input, uid, hearlier, hinput,
    (Input.signerUid?_eq_some_iff.mp hkeyEarlier).2, (Input.signerUid?_eq_some_iff.mp hkey).2⟩

/-- The unlock of a chain's kind points to the first input of the chain that is the owner. -/
theorem chain {kind : AddressKind} (h : Resolves signer inputs unlocks)
    (hunlock : unlocks[i]? = some unlock) (hkind : unlock.chainKind? = some kind) :
    ∃ input chain j, inputs[i]? = some input ∧ input.owner.unrestricted.kind = kind ∧
      input.owner.unrestricted.chainId? = some chain ∧ unlock.index? = some j ∧ j.toNat < i ∧
      Input.first Input.chain? inputs chain = some j.toNat := by
  obtain ⟨input, hinput, hrule⟩ := h.exists_unlockedBy hunlock
  obtain ⟨chain, j, hchain, howner, hindex, hfirst⟩ := hrule.of_chainKind hkind
  obtain ⟨hlt, hall⟩ := Input.first_of_take hfirst
  exact ⟨input, chain, j, hinput, howner, hchain, hindex, hlt, hall⟩

/-- **There are as many signatures as keys.** -/
theorem signatures (h : Resolves signer inputs unlocks) :
    unlocks.countP Unlock.isSignature = (Input.keys signer inputs).card := by
  induction h with
  | nil => rfl
  | concat _ hinput ih => rw [List.countP_append, ih, hinput.card_keys]

end Resolves

/-! ## Following pointers -/

/-- An input whose unlock points to another input. -/
def PointsTo (unlocks : List Unlock) (i j : ℕ) : Prop :=
  ∃ unlock index, unlocks[i]? = some unlock ∧ unlock.index? = some index ∧ index.toNat = j

namespace Resolves

variable {signer : Signer} {inputs : List Input} {unlocks : List Unlock} {i j : ℕ}

/-- Pointers lead to earlier inputs. -/
theorem descends (h : Resolves signer inputs unlocks) (hpoints : PointsTo unlocks i j) : j < i := by
  obtain ⟨unlock, index, hunlock, hindex, rfl⟩ := hpoints
  obtain ⟨input, -, hrule⟩ := h.exists_unlockedBy hunlock
  rcases hrule.points with ⟨s, rfl⟩ | ⟨index', hindex', hlt⟩
  · exact nomatch hindex
  · obtain rfl := Option.some.inj (hindex.symm.trans hindex')
    rw [List.length_take] at hlt
    omega

/-- **Following pointers ends at a signature**, from every input. -/
theorem grounded (h : Resolves signer inputs unlocks) (hi : i < inputs.length) :
    ∃ k s, Relation.ReflTransGen (PointsTo unlocks) i k ∧ unlocks[k]? = some (.signature s) := by
  induction i using Nat.strongRecOn with
  | ind i ih =>
    have hunlock := List.getElem?_eq_getElem (h.length_eq ▸ hi)
    obtain ⟨input, -, hrule⟩ := h.exists_unlockedBy hunlock
    rcases hrule.points with ⟨s, hs⟩ | ⟨index, hindex, -⟩
    · exact ⟨i, s, .refl, hs ▸ hunlock⟩
    · have hstep : PointsTo unlocks i index.toNat := ⟨_, index, hunlock, hindex, rfl⟩
      have hlt := h.descends hstep
      obtain ⟨k, s, hpath, hs⟩ := ih _ hlt (hlt.trans hi)
      exact ⟨k, s, .head hstep hpath, hs⟩

end Resolves

/-! ## Two wallets -/

/-- The wallet is unlocked by one signature, in either mode. -/
theorem unlocksOf_sampleInputs (mode : SigningMode) (t : Transaction) :
    unlocksOf sampleSigner mode t sampleInputs
      = .ok [.signature (.placeholder (.zero 32)), .account 0, .reference 0] := by
  have hname : sampleAccount.orOfOutputId ⟨⟨.zero 32, 0⟩, 0⟩ = sampleAccount := by decide +kernel
  cases mode <;>
    simp [unlocksOf, sampleInputs, sampleSigner, sampleOwner, hname, UInt16.size, Unlocked.addAll,
      Unlocked.add, Unlocked.unlock, Unlocked.unlockByKey, Unlocked.unlockByChain, Unlocked.chainOf,
      Unlocked.chainUnlock?, Unlocked.signatureOf, Address.unrestricted, Address.chainId?,
      Address.isSigned, Output.chainId?, Output.account, Output.basic, ChainId.orOfOutputId,
      ChainId.isAddressable, Option.filter_some, Std.HashMap.getElem_insertIfNew, bind, Except.bind,
      pure, Except.pure, Except.map]

/-- The address of a key, for an account that is still to be opened. -/
def firstKey : Address := .implicitAccountCreation ⟨.replicate 32 1⟩

/-- The address of another key. -/
def secondKey : Address := .ed25519 ⟨.replicate 32 2⟩

/-- A signer of every key, whose signatures have contents. -/
def sampleKeeper : Signer where
  uid owner := match owner.keyHash? with
    | some key => .ok ⟨key.bytes⟩
    | none => .error (.unsupportedAddress owner.kind)
  sign _ _ := .ok ⟨.zero 32, .replicate 64 5⟩
  placeholder _ := .ok (.placeholder (.zero 32))

/-- The name of an output of the second wallet. -/
def samplePlace (index : UInt16) : OutputId := ⟨⟨.zero 32, 0⟩, index⟩

/-- A collectible that the output opens. -/
def newCollectible : Input := ⟨samplePlace 0, .nft 1000000 0 .empty firstKey, firstKey⟩

/-- An output of the new collectible, behind a restriction. -/
def heldByCollectible : Input :=
  ⟨samplePlace 1, .basic 1000000 0 sampleOwner,
    .restricted (.nft ⟨blake3 (encode (samplePlace 0))⟩) .all⟩

/-- Another output of the first key, behind a restriction. -/
def heldByKey : Input :=
  ⟨samplePlace 5, .basic 1000000 0 sampleOwner, .restricted (.ed25519 ⟨.replicate 32 1⟩) .all⟩

/-- The new collectible and its output; a new anchor, an account that it owns and an output that this owns;
and the other output of the first key. -/
def sampleChained : List Input :=
  [newCollectible, heldByCollectible,
    ⟨samplePlace 2, ⟨1000000, .anchor 0 .empty 0, {}⟩, secondKey⟩,
    ⟨samplePlace 3, .account 1000000 0 sampleAccount sampleOwner,
      .anchor ⟨blake3 (encode (samplePlace 2))⟩⟩,
    ⟨samplePlace 4, .basic 1000000 0 sampleOwner, .account sampleAccount⟩, heldByKey]

/-- One signature of each key, and pointers to them. -/
def sampleChainedUnlocks : List Unlock :=
  [.signature ⟨.zero 32, .replicate 64 5⟩, .nft 0, .signature ⟨.zero 32, .replicate 64 5⟩, .anchor 2,
    .account 3, .reference 0]

/-- The second wallet is unlocked by one signature of each key. -/
theorem unlocksOf_sampleChained (t : Transaction) :
    unlocksOf sampleKeeper .sign t sampleChained = .ok sampleChainedUnlocks := by
  have hkeys : (⟨.replicate 32 2⟩ : SignerUid) ≠ ⟨.replicate 32 1⟩ := by decide
  have hname : sampleAccount ≠ ⟨.zero 32⟩ := by decide
  simp [unlocksOf, sampleChained, newCollectible, heldByCollectible, heldByKey, sampleChainedUnlocks,
    sampleKeeper, firstKey, secondKey, hkeys, hname, UInt16.size, Unlocked.addAll, Unlocked.add,
    Unlocked.unlock, Unlocked.unlockByKey, Unlocked.unlockByChain, Unlocked.chainOf,
    Unlocked.chainUnlock?, Unlocked.signatureOf, Address.unrestricted, Address.chainId?,
    Address.keyHash?, Address.isSigned, Output.chainId?, Output.account, Output.basic, Output.nft,
    ChainId.orOfOutputId, ChainName.orOfOutputId_eq, ChainName.empty, ChainId.isAddressable,
    Option.filter_some, Std.HashMap.getElem_insert, Std.HashMap.getElem_insertIfNew, bind, Except.bind,
    pure, Except.pure, Except.map]

/-! ## Soundness -/

/-- What unlocks guarantee of the inputs they unlock. -/
structure Authorizes (signer : Signer) (inputs : List Input) (unlocks : List Unlock) : Prop where
  /-- Sixteen bits number the inputs. -/
  few : inputs.length ≤ UInt16.size
  length_eq : unlocks.length = inputs.length
  /-- The signer knows every owner whom a signature unlocks. -/
  signed : ∀ input ∈ inputs, input.owner.unrestricted.isSigned →
    ∃ uid, signer.uid input.owner.unrestricted = .ok uid
  /-- A reference points to the signature of the same key, at the first input of the key. -/
  reference : ∀ {i : ℕ} {j : UInt16}, unlocks[i]? = some (.reference j) →
    j.toNat < i ∧ (∃ s, unlocks[j.toNat]? = some (.signature s)) ∧
      ∃ earlier input uid, inputs[j.toNat]? = some earlier ∧ inputs[i]? = some input ∧
        signer.uid earlier.owner.unrestricted = .ok uid ∧
        signer.uid input.owner.unrestricted = .ok uid
  /-- The unlock of a chain's kind points to the first input of the chain that is the owner. -/
  chain : ∀ {i : ℕ} {unlock : Unlock} {kind : AddressKind}, unlocks[i]? = some unlock →
    unlock.chainKind? = some kind → ∃ input chain j, inputs[i]? = some input ∧
      input.owner.unrestricted.kind = kind ∧ input.owner.unrestricted.chainId? = some chain ∧
      unlock.index? = some j ∧ j.toNat < i ∧ Input.first Input.chain? inputs chain = some j.toNat
  /-- There are as many signatures as keys. -/
  signatures : unlocks.countP Unlock.isSignature = (Input.keys signer inputs).card
  /-- Pointers lead to earlier inputs. -/
  descends : ∀ {i j : ℕ}, PointsTo unlocks i j → j < i
  /-- Following pointers ends at a signature. -/
  grounded : ∀ {i : ℕ}, i < inputs.length →
    ∃ k s, Relation.ReflTransGen (PointsTo unlocks) i k ∧ unlocks[k]? = some (.signature s)

/-- **Unlocks authorize their inputs**: each is a signature or points to what stands for one, and no key
signs twice. -/
theorem authorizes_of_unlocksOf {signer : Signer} {mode : SigningMode} {t : Transaction}
    {inputs : List Input} {unlocks : List Unlock} (h : unlocksOf signer mode t inputs = .ok unlocks) :
    Authorizes signer inputs unlocks := by
  obtain ⟨hfew, hres⟩ := resolves_of_unlocksOf h
  exact ⟨hfew, hres.length_eq, fun _ => hres.signed, hres.reference, hres.chain, hres.signatures,
    hres.descends, hres.grounded⟩

theorem authorizes_of_unlocksOf_sample :
    unlocksOf sampleKeeper .sign {} sampleChained = .ok sampleChainedUnlocks ∧
      Authorizes sampleKeeper sampleChained sampleChainedUnlocks :=
  ⟨unlocksOf_sampleChained {}, authorizes_of_unlocksOf (unlocksOf_sampleChained {})⟩

end ManaWallet
