/-!
# Arithmetic/Checked — 64-bit sums, differences and products that never wrap

Every holder of a ledger has to reach the same balance, so a result that does not fit in 64 bits is
reported and never wrapped or clamped.  The report keeps both operands.
-/

namespace ManaWallet

/-- Why a 64-bit sum, difference or product has no value. -/
inductive ArithmeticError where
  /-- The sum `lhs + rhs` is `2 ^ 64` or more. -/
  | additionOverflow (lhs rhs : UInt64)
  /-- The difference `lhs - rhs` is negative. -/
  | subtractionUnderflow (lhs rhs : UInt64)
  /-- The product `lhs * rhs` is `2 ^ 64` or more. -/
  | multiplicationOverflow (lhs rhs : UInt64)
deriving DecidableEq, Repr

/-- The report of an arithmetic failure. -/
def ArithmeticError.message : ArithmeticError → String
  | .additionOverflow lhs rhs => s!"Addition overflow: {lhs} + {rhs}"
  | .subtractionUnderflow lhs rhs => s!"Subtraction underflow: {lhs} - {rhs}"
  | .multiplicationOverflow lhs rhs => s!"Multiplication overflow: {lhs} * {rhs}"

/-- The sum, if it fits in 64 bits. -/
def checkedAdd (lhs rhs : UInt64) : Except ArithmeticError UInt64 :=
  if lhs.toNat + rhs.toNat < UInt64.size then .ok (lhs + rhs) else .error (.additionOverflow lhs rhs)

/-- The difference, if it is not negative. -/
def checkedSub (lhs rhs : UInt64) : Except ArithmeticError UInt64 :=
  if rhs ≤ lhs then .ok (lhs - rhs) else .error (.subtractionUnderflow lhs rhs)

/-- The product, if it fits in 64 bits. -/
def checkedMul (lhs rhs : UInt64) : Except ArithmeticError UInt64 :=
  if lhs.toNat * rhs.toNat < UInt64.size then .ok (lhs * rhs)
  else .error (.multiplicationOverflow lhs rhs)

/-- **A checked sum is the sum of the naturals**, and there is one exactly when that sum fits. -/
theorem checkedAdd_eq_ok_iff {a b c : UInt64} :
    checkedAdd a b = .ok c ↔ c.toNat = a.toNat + b.toNat := by
  have hc := c.toNat_lt_size
  unfold checkedAdd
  split
  · next h =>
    rw [Except.ok.injEq, ← UInt64.toNat_inj, UInt64.toNat_add, Nat.mod_eq_of_lt h, eq_comm]
  · next h =>
    simp only [reduceCtorEq, false_iff]
    omega

/-- **A checked difference is the difference of the naturals**, and there is one exactly when the
right side is the smaller. -/
theorem checkedSub_eq_ok_iff {a b c : UInt64} :
    checkedSub a b = .ok c ↔ c.toNat + b.toNat = a.toNat := by
  unfold checkedSub
  split
  · next h =>
    have h' := UInt64.le_iff_toNat_le.mp h
    rw [Except.ok.injEq, ← UInt64.toNat_inj, UInt64.toNat_sub_of_le _ _ h]
    omega
  · next h =>
    rw [UInt64.le_iff_toNat_le] at h
    simp only [reduceCtorEq, false_iff]
    omega

/-- **A checked product is the product of the naturals**, and there is one exactly when that product
fits. -/
theorem checkedMul_eq_ok_iff {a b c : UInt64} :
    checkedMul a b = .ok c ↔ c.toNat = a.toNat * b.toNat := by
  have hc := c.toNat_lt_size
  unfold checkedMul
  split
  · next h =>
    rw [Except.ok.injEq, ← UInt64.toNat_inj, UInt64.toNat_mul, Nat.mod_eq_of_lt h, eq_comm]
  · next h =>
    simp only [reduceCtorEq, false_iff]
    omega

end ManaWallet
