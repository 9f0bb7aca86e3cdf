import ManaWallet.Transaction
import Mathlib.Data.List.Sort

/-!
# Proofs/Order — sorting leaves no trace of the order before

    values in one order ──────┐
                              ├──sortAscending──▸ one list
    the same in another order ┘

That holds of values that the numbers they are compared by tell apart, since only one list of them is in
ascending order (`sortAscending_eq`, `sortAscending_eq_of_perm`), as those of a context input do
(`sortKey_injective_contextInput`).  Byte strings compare as their bytes do (`compareOn_byteKey`).
-/

namespace ManaWallet

section Sorting

variable {α : Type} [SortKey α]

/-- Values neither of which comes before the other are compared by the same numbers. -/
theorem sortKey_eq_of_isLE {x y : α} (h : (compareOn sortKey x y).isLE) (h' : (compareOn sortKey y x).isLE) :
    sortKey x = sortKey y :=
  Std.compare_eq_iff_eq.mp (Std.OrientedCmp.isLE_antisymm h h')

/-- **There is one list in ascending order** of some values, where equal numbers are those of equal values. -/
theorem sortAscending_eq {values sorted : List α} (h : values.Perm sorted)
    (hsorted : sorted.Pairwise fun x y => (compareOn sortKey x y).isLE)
    (hkeys : ∀ x ∈ values, ∀ y ∈ values, sortKey x = sortKey y → x = y) :
    sortAscending values = sorted := by
  have hsame : (sortAscending values).Perm sorted := (perm_sortAscending values).trans h
  refine hsame.eq_of_pairwise (fun x y hx hy hxy hyx => ?_) (pairwise_sortAscending values) hsorted
  have hx' : x ∈ values := (perm_sortAscending values).mem_iff.mp hx
  have hy' : y ∈ values := h.mem_iff.mpr hy
  exact hkeys x hx' y hy' (sortKey_eq_of_isLE hxy hyx)

/-- **Sorting forgets the order**, where equal numbers are those of equal values. -/
theorem sortAscending_eq_of_perm {values values' : List α} (h : values.Perm values')
    (hkeys : ∀ x ∈ values, ∀ y ∈ values, sortKey x = sortKey y → x = y) :
    sortAscending values = sortAscending values' :=
  sortAscending_eq (h.trans (perm_sortAscending values').symm) (pairwise_sortAscending values') hkeys

end Sorting

/-! ## Byte strings -/

theorem compare_toNat (a b : UInt8) : compare a.toNat b.toNat = compare a b := by
  have hlt : a.toNat < b.toNat ↔ a < b := UInt8.lt_iff_toNat_lt.symm
  have heq : a.toNat = b.toNat ↔ a = b := UInt8.toNat_inj
  exact (if_congr hlt rfl (if_congr heq rfl rfl) :)

/-- Byte strings compare as their bytes, the first that differ deciding. -/
theorem compareOn_byteKey {n : ℕ} (a b : Bytes n) : compareOn byteKey a b = compare a b := by
  have hlists : ∀ x y : List UInt8,
      List.compareLex compare (x.map UInt8.toNat) (y.map UInt8.toNat) = List.compareLex compare x y := by
    intro x
    induction x with
    | nil => intro y; cases y <;> rfl
    | cons first rest ih =>
      intro y
      cases y with
      | nil => rfl
      | cons first' rest' =>
        rw [List.map_cons, List.map_cons, List.compareLex_cons_cons, List.compareLex_cons_cons,
          compare_toNat, ih]
  rw [Vector.compare_eq_compare_toList, List.compare_eq_compareLex, ← hlists]
  rfl

/-- A byte string can be read off the numbers it is compared by. -/
theorem byteKey_injective {n : ℕ} {a b : Bytes n} (h : byteKey a = byteKey b) : a = b := by
  refine Std.compare_eq_iff_eq.mp ((compareOn_byteKey a b).symm.trans ?_)
  exact Std.compare_eq_iff_eq.mpr h

theorem length_byteKey {n : ℕ} (a : Bytes n) : (byteKey a).length = n := by
  rw [byteKey, List.length_map, Vector.length_toList]

/-! ## Context inputs -/

theorem sortKey_injective_commitmentId {x y : CommitmentId} (h : sortKey x = sortKey y) : x = y := by
  obtain ⟨hash, slot⟩ := x
  obtain ⟨hash', slot'⟩ := y
  obtain ⟨hhash, hslot⟩ := List.append_inj h ((length_byteKey hash).trans (length_byteKey hash').symm)
  obtain rfl := byteKey_injective hhash
  obtain rfl := UInt32.toNat_inj.mp (List.cons.inj hslot).1
  rfl

/-- **Context inputs are told apart** by the numbers they are compared by. -/
theorem sortKey_injective_contextInput {x y : ContextInput} (h : sortKey x = sortKey y) : x = y := by
  cases x <;> cases y
  case commitment.commitment id id' =>
    exact congrArg _ (sortKey_injective_commitmentId (List.cons.inj h).2)
  case blockIssuanceCredit.blockIssuanceCredit account account' =>
    have hbytes := byteKey_injective (List.cons.inj h).2
    obtain ⟨_⟩ := account
    obtain ⟨_⟩ := account'
    exact congrArg _ (congrArg _ hbytes)
  case reward.reward index index' =>
    exact congrArg _ (UInt16.toNat_inj.mp (List.cons.inj (List.cons.inj h).2).1)
  -- alternatives of different numbers
  all_goals exact nomatch (List.cons.inj h).1

end ManaWallet
