import ManaWallet.WorkScore

/-!
# Block — what carries a transaction or data to the ledger
-/

namespace ManaWallet

/-- What a block says of itself and its issuer. -/
structure BlockHeader where
  protocolVersion : UInt8
  networkId : UInt64
  issuingTime : Int64
  slotCommitmentId : CommitmentId
  latestFinalizedSlot : SlotIndex
  issuerId : AccountId
deriving DecidableEq

instance : Canonical BlockHeader where
  encode h :=
    encode h.protocolVersion ++ encode h.networkId ++ encode h.issuingTime
      ++ encode h.slotCommitmentId ++ encode h.latestFinalizedSlot ++ encode h.issuerId

/-- What a block can carry. -/
inductive Payload where
  | signed (transaction : SignedTransaction)
  | tagged (data : TaggedData)

instance : Canonical Payload where
  encode
    | .signed transaction => Canonical.variant 0 ++ encode transaction
    | .tagged data => Canonical.variant 1 ++ encode data

/-- The score of a payload. -/
def Payload.workScore (p : WorkScoreParameters) : Payload → Except ArithmeticError WorkScore
  | .signed transaction => p.ofSigned transaction
  | .tagged data => p.ofTagged data

/-- The name of a block. -/
abbrev BlockId := Bytes 32

/-- A block. -/
structure Block where
  header : BlockHeader
  strongParents : List BlockId
  weakParents : List BlockId
  shallowLikeParents : List BlockId
  payload : Option Payload
  maxBurnedMana : Mana

namespace Block

instance : Canonical Block where
  encode b :=
    encode b.header ++ encode b.strongParents ++ encode b.weakParents
      ++ encode b.shallowLikeParents ++ encode b.payload ++ encode b.maxBurnedMana

/-- The score of a block: its own weight and the score of its payload, if it has one. -/
def workScore (b : Block) (p : WorkScoreParameters) : Except ArithmeticError WorkScore := do
  let payload ← match b.payload with
    | some payload => payload.workScore p
    | none => pure 0
  p.ofBlock payload

end Block

end ManaWallet
