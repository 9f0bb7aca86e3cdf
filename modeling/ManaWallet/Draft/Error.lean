import ManaWallet.ManaSchedule
import ManaWallet.Signer
import ManaWallet.Output

/-!
# Draft/Error — why a transaction cannot be drafted, balanced or signed
-/

namespace ManaWallet

/-- Why an operation on a draft has no result. -/
inductive DraftError where
  | mana (error : ManaError)
  | arithmetic (error : ArithmeticError)
  | signer (error : SignerError)
  /-- No earlier input unlocks the chain that owns an input. -/
  | chainNotUnlocked (input : Nat) (chain : ChainId)
  /-- Nothing can unlock an input whose owner is of this kind. -/
  | unsupportedAddress (input : Nat) (kind : AddressKind)
  | notEnoughMana (required available : Mana)
  | outputIndexOutOfRange (index outputs : Nat)
  | outputCannotHoldMana (index : Nat) (kind : OutputKind)
  | tooManyInputs (inputs : Nat)
  /-- The score of the block that would carry the transaction is out of range. -/
  | workScore (error : ArithmeticError)
deriving DecidableEq

/-- The report of a failure with a draft. -/
def DraftError.message : DraftError → String
  | .mana error => error.message
  | .arithmetic error => s!"Arithmetic failed: {error.message}"
  | .signer error => s!"Signer failed: {error.message}"
  | .chainNotUnlocked input chain =>
    s!"Input {input} is owned by chain {chain.text} which is not unlocked by an earlier input"
  | .unsupportedAddress input kind =>
    s!"Input {input} is owned by an unsupported {kind.text} address"
  | .notEnoughMana required available =>
    s!"Not enough mana: required {required}, available {available}"
  | .outputIndexOutOfRange index outputs => s!"Output index {index} out of range ({outputs} outputs)"
  | .outputCannotHoldMana index kind =>
    s!"Output {index} is a {kind.text} output and cannot hold mana"
  | .tooManyInputs inputs => s!"Too many inputs: {inputs}"
  | .workScore error => error.message

end ManaWallet
