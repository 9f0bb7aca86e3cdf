import ManaWallet.Proofs.Result
import Mathlib.Algebra.GroupWithZero.Nat

/-!
# Proofs/Arithmetic/Totals — sums that are checked step by step

    first ──checkedAdd──▸ … ──checkedAdd──▸ total ──checkedSub──▸ total less something

Partial sums only grow, so a sum of words overflows at some step exactly if the whole of it does not fit in
64 bits (`Totals.add`); what is taken off in the end is checked once (`Totals.sub`).
-/

namespace ManaWallet

variable {ε : Type} {report : ArithmeticError → ε} {total less : ℕ}

/-- A natural that fits in 64 bits is that of a word. -/
theorem exists_word {n : ℕ} (h : n < 2 ^ 64) : ∃ a : UInt64, a.toNat = n :=
  ⟨.ofNat n, UInt64.toNat_ofNat_of_lt' h⟩

/-- A computation that adds up to a total and takes something off it, or reports that the total does not
fit in 64 bits. -/
structure Totals (report : ArithmeticError → ε) (x : Except ε UInt64) (total less : ℕ) : Prop where
  ok_iff : ∀ v, x = .ok v ↔ total < 2 ^ 64 ∧ v.toNat + less = total
  overflow : 2 ^ 64 ≤ total → ∃ lhs rhs,
    x = .error (report (.additionOverflow lhs rhs)) ∧ 2 ^ 64 ≤ lhs.toNat + rhs.toNat

/-- One word is its own total. -/
theorem totals_ok (a : UInt64) : Totals report (.ok a) a.toNat 0 where
  ok_iff v := by
    rw [Except.ok.injEq, Nat.add_zero, UInt64.toNat_inj, eq_comm]
    exact ⟨fun h => ⟨a.toNat_lt, h⟩, fun h => h.2⟩
  overflow h := absurd a.toNat_lt (Nat.not_lt.mpr h)

/-- **A further word** is added to the total. -/
theorem Totals.add {x : Except ArithmeticError UInt64} (h : Totals id x total 0) (b : UInt64) :
    Totals id (x >>= fun a => checkedAdd a b) (total + b.toNat) 0 where
  ok_iff v := by
    have hv := v.toNat_lt
    simp only [bind_eq_ok_iff, h.ok_iff, checkedAdd_eq_ok_iff, Nat.add_zero]
    constructor
    · rintro ⟨a, ⟨-, rfl⟩, hsum⟩
      omega
    · rintro ⟨hfits, hsum⟩
      obtain ⟨a, rfl⟩ := exists_word (by omega : total < 2 ^ 64)
      exact ⟨a, ⟨a.toNat_lt, rfl⟩, hsum⟩
  overflow hover := by
    rcases Nat.lt_or_ge total (2 ^ 64) with hfits | hearlier
    · obtain ⟨a, rfl⟩ := exists_word hfits
      rw [(h.ok_iff a).mpr ⟨hfits, rfl⟩]
      exact ⟨a, b, if_neg (Nat.not_lt.mpr hover), hover⟩
    · obtain ⟨lhs, rhs, heq, hsum⟩ := h.overflow hearlier
      exact ⟨lhs, rhs, by rw [heq]; rfl, hsum⟩

/-- **What is taken off** leaves the total as what has to fit. -/
theorem Totals.sub {x : Except ArithmeticError UInt64} (h : Totals id x total 0) (b : UInt64) :
    Totals id (x >>= fun a => checkedSub a b) total b.toNat where
  ok_iff v := by
    simp only [bind_eq_ok_iff, h.ok_iff, checkedSub_eq_ok_iff, Nat.add_zero]
    constructor
    · rintro ⟨a, ⟨hfits, rfl⟩, hless⟩
      exact ⟨hfits, hless⟩
    · rintro ⟨hfits, hless⟩
      obtain ⟨a, rfl⟩ := exists_word hfits
      exact ⟨a, ⟨hfits, rfl⟩, hless⟩
  overflow hover := by
    obtain ⟨lhs, rhs, heq, hsum⟩ := h.overflow hover
    exact ⟨lhs, rhs, by rw [heq]; rfl, hsum⟩

/-- A total is one whatever the report is part of. -/
theorem Totals.mapError {x : Except ArithmeticError UInt64} (h : Totals id x total less) :
    Totals report (x.mapError report) total less where
  ok_iff v := mapError_eq_ok_iff.trans (h.ok_iff v)
  overflow hover := by
    obtain ⟨lhs, rhs, heq, hsum⟩ := h.overflow hover
    exact ⟨lhs, rhs, by rw [heq]; rfl, hsum⟩

/-- There is a result if the total fits, where no more is taken off than there is. -/
theorem Totals.exists_ok {x : Except ε UInt64} (h : Totals report x total less) (hless : less ≤ total)
    (hfits : total < 2 ^ 64) : ∃ v, x = .ok v := by
  obtain ⟨v, hv⟩ := exists_word (Nat.lt_of_le_of_lt (Nat.sub_le total less) hfits)
  exact ⟨v, (h.ok_iff v).mpr ⟨hfits, by omega⟩⟩

/-- **Overflow is the only failure**, where no more is taken off than there is. -/
theorem Totals.ok_or_overflow {x : Except ε UInt64} (h : Totals report x total less)
    (hless : less ≤ total) : (∃ v, x = .ok v) ∨ ∃ lhs rhs,
      x = .error (report (.additionOverflow lhs rhs)) ∧ 2 ^ 64 ≤ lhs.toNat + rhs.toNat := by
  rcases Nat.lt_or_ge total (2 ^ 64) with hfits | hover
  · exact .inl (h.exists_ok hless hfits)
  · exact .inr (h.overflow hover)

end ManaWallet
