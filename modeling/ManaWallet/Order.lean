/-!
# Order — an order read off a list of numbers

An ordered value lists the numbers it is compared by, the most significant first; two values compare as
their lists do, number by number, a list that ends coming before its continuations.  An alternative
opens its list with its number among the alternatives.
-/

namespace ManaWallet

/-- Values that are compared by a list of numbers. -/
class SortKey (α : Type) where
  sortKey : α → List Nat

export SortKey (sortKey)

variable {α : Type} [SortKey α]

/-- The values in ascending order; equal ones keep theirs. -/
def sortAscending (values : List α) : List α :=
  values.mergeSort fun x y => (compareOn sortKey x y).isLE

/-- Sorting keeps every value. -/
theorem perm_sortAscending (values : List α) : (sortAscending values).Perm values :=
  List.mergeSort_perm values _

/-- **Sorted values ascend**: each compares as less than or equal to all behind it. -/
theorem pairwise_sortAscending (values : List α) :
    (sortAscending values).Pairwise fun x y => (compareOn sortKey x y).isLE := by
  refine List.pairwise_mergeSort (fun x y z => ?_) (fun x y => ?_) values
  · exact Std.TransCmp.isLE_trans
  · have hswap : compareOn sortKey y x = (compareOn sortKey x y).swap := Std.OrientedCmp.eq_swap
    rw [Bool.or_eq_true, hswap]
    cases compareOn sortKey x y <;> decide

end ManaWallet
