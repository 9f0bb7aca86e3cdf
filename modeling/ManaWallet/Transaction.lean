import ManaWallet.Allotments
import ManaWallet.Output
import ManaWallet.Unlock

/-!
# Transaction — inputs consumed, outputs made, mana allotted

    outputs consumed ──digest each──▸ inputs commitment ─┐
    network, slot, inputs, allotments, outputs … ────────┴──▸ canonical bytes ──digest──▸ signing message

The signing message is the digest of the whole transaction, and with the creation slot its name.
-/

namespace ManaWallet

/-- Something outside the transaction that it refers to. -/
inductive ContextInput where
  | commitment (id : CommitmentId)
  | blockIssuanceCredit (accountId : AccountId)
  | reward (index : UInt16)
deriving DecidableEq

instance : Canonical ContextInput where
  encode
    | .commitment id => Canonical.variant 0 ++ encode id
    | .blockIssuanceCredit accountId => Canonical.variant 1 ++ encode accountId
    | .reward index => Canonical.variant 2 ++ encode index

instance : SortKey ContextInput where
  sortKey
    | .commitment id => 0 :: sortKey id
    | .blockIssuanceCredit accountId => 1 :: byteKey accountId.bytes
    | .reward index => [2, index.toNat]

/-- What a transaction may do, one bit each. -/
structure TransactionCapabilities where
  bits : UInt8 := 0
deriving DecidableEq

/-- Whether every bit of `flag` is granted. -/
def TransactionCapabilities.has (c : TransactionCapabilities) (flag : UInt8) : Bool :=
  c.bits &&& flag == flag

/-- Free data behind a tag. -/
structure TaggedData where
  tag : List UInt8 := []
  data : List UInt8 := []
deriving DecidableEq

instance : Canonical TaggedData := ⟨fun d => encode d.tag ++ encode d.data⟩

/-- A transaction without its unlocks. -/
structure Transaction where
  networkId : UInt64 := 0
  creationSlot : SlotIndex := 0
  contextInputs : List ContextInput := []
  inputs : List OutputId := []
  inputsCommitment : Bytes 32 := .zero 32
  allotments : Allotments := {}
  capabilities : TransactionCapabilities := {}
  payload : Option TaggedData := none
  outputs : List Output := []

namespace Transaction

instance : Canonical Transaction where
  encode t :=
    encode t.networkId ++ encode t.creationSlot ++ encode t.contextInputs ++ encode t.inputs
      ++ encode t.inputsCommitment ++ encode t.allotments ++ encode t.capabilities.bits
      ++ encode t.payload ++ encode t.outputs

/-- What the owners of the inputs sign. -/
def signingMessage (t : Transaction) : Bytes 32 := blake3 (encode t)

/-- The name of the transaction. -/
def id (t : Transaction) : TransactionId := ⟨t.signingMessage, t.creationSlot⟩

/-- The name of one of the outputs of the transaction. -/
def outputId (t : Transaction) (index : UInt16) : OutputId := ⟨t.id, index⟩

end Transaction

/-- The digest that ties a transaction to the outputs it consumes: that of their digests in order. -/
def inputsCommitment (consumed : List Output) : Bytes 32 :=
  blake3 (consumed.flatMap fun output => (blake3 (encode output)).toList)

/-- A transaction with one unlock per input. -/
structure SignedTransaction where
  transaction : Transaction
  unlocks : List Unlock

namespace SignedTransaction

instance : Canonical SignedTransaction where
  encode s := encode s.transaction ++ encode s.unlocks

/-- The name of the transaction; unlocks do not enter it. -/
def id (s : SignedTransaction) : TransactionId := s.transaction.id

/-- The number of inputs with a signature of their own. -/
def signatureCount (s : SignedTransaction) : Nat := s.unlocks.countP Unlock.isSignature

/-- The number of canonical bytes. -/
def size (s : SignedTransaction) : Nat := (encode s).length

end SignedTransaction

end ManaWallet
