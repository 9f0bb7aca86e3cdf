import ManaWallet.Transaction

/-!
# WorkScore — what it costs to process a block

The score adds up weighted counts; a block's issuer burns the reference mana cost times the score.  A
score has 32 bits, and every step towards it is checked in 64; a count too large for a word is too large
for a score.
-/

namespace ManaWallet

/-- The cost of processing a block. -/
abbrev WorkScore := UInt32

/-- The weight of each thing that is counted. -/
structure WorkScoreParameters where
  dataByte : WorkScore := 1
  block : WorkScore := 100
  input : WorkScore := 10
  contextInput : WorkScore := 20
  output : WorkScore := 20
  allotment : WorkScore := 1000
  signatureEd25519 : WorkScore := 1000
deriving DecidableEq, Repr

/-- The mana that a block of a score burns. -/
def manaCost (referenceManaCost : Mana) (score : WorkScore) : Except ArithmeticError Mana :=
  checkedMul referenceManaCost score.toUInt64

namespace WorkScore

/-- A sum as a score, if it fits in 32 bits; otherwise it counts as a sum that overflowed by nothing. -/
def ofSum (sum : UInt64) : Except ArithmeticError WorkScore :=
  if sum.toNat < UInt32.size then .ok sum.toUInt32 else .error (.additionOverflow sum 0)

/-- A count as a word.  One that does not fit is taken for the largest word: times any weight but zero
neither of them is a score. -/
def ofCount (count : Nat) : UInt64 := .ofNat (min count (UInt64.size - 1))

/-- The checked sum of counts times weights, from the left. -/
def weightedSum (sum : UInt64) : List (Nat × WorkScore) → Except ArithmeticError UInt64
  | [] => .ok sum
  | (count, weight) :: rest => do
    let product ← checkedMul (ofCount count) weight.toUInt64
    let sum ← checkedAdd sum product
    weightedSum sum rest

end WorkScore

namespace WorkScoreParameters

/-- The counts that make up the score of a signed transaction, each with its weight. -/
def countsOf (p : WorkScoreParameters) (s : SignedTransaction) : List (Nat × WorkScore) :=
  [(s.size, p.dataByte),
   (s.transaction.inputs.length, p.input),
   (s.transaction.contextInputs.length, p.contextInput),
   (s.transaction.outputs.length, p.output),
   (s.transaction.allotments.size, p.allotment),
   (s.signatureCount, p.signatureEd25519)]

/-- The score of a signed transaction. -/
def ofSigned (p : WorkScoreParameters) (s : SignedTransaction) : Except ArithmeticError WorkScore := do
  WorkScore.ofSum (← WorkScore.weightedSum 0 (p.countsOf s))

/-- The score of tagged data: its bytes. -/
def ofTagged (p : WorkScoreParameters) (d : TaggedData) : Except ArithmeticError WorkScore := do
  WorkScore.ofSum (← checkedMul (WorkScore.ofCount (encode d).length) p.dataByte.toUInt64)

/-- The score of a block whose payload has a score. -/
def ofBlock (p : WorkScoreParameters) (payload : WorkScore) : Except ArithmeticError WorkScore := do
  WorkScore.ofSum (← checkedAdd p.block.toUInt64 payload.toUInt64)

end WorkScoreParameters

end ManaWallet
