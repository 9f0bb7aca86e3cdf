import ManaWallet.Arithmetic.Checked
import ManaWallet.Identifier

/-!
# Allotments — mana that a transaction hands to accounts

One entry per account, in the order in which the accounts were first named.  Every change is `set`,
which gives an account's entry another amount or adds the entry (`manaOf_set`); `increase` sets the
checked sum.
-/

namespace ManaWallet

/-- Mana handed to an account. -/
structure Allotment where
  accountId : AccountId
  mana : Mana
deriving DecidableEq

instance : Canonical Allotment := ⟨fun a => encode a.accountId ++ encode a.mana⟩

instance : SortKey Allotment := ⟨fun a => byteKey a.accountId.bytes⟩

/-- The allotments of a transaction, at most one per account. -/
structure Allotments where
  entries : List Allotment := []
  nodup : (entries.map Allotment.accountId).Nodup := by exact List.nodup_nil
deriving DecidableEq

instance : Canonical Allotments := ⟨fun a => encode a.entries⟩

namespace Allotments

/-- The number of accounts with an entry. -/
def size (a : Allotments) : Nat := a.entries.length

/-- The mana that a list of entries allots to an account. -/
def manaIn (accountId : AccountId) : List Allotment → Mana
  | [] => 0
  | a :: rest => if a.accountId = accountId then a.mana else manaIn accountId rest

/-- The entries with another amount for an account, whose entry joins at the end if there is none. -/
def setIn (accountId : AccountId) (mana : Mana) : List Allotment → List Allotment
  | [] => [⟨accountId, mana⟩]
  | a :: rest =>
    if a.accountId = accountId then ⟨accountId, mana⟩ :: rest else a :: setIn accountId mana rest

/-- Setting an amount adds no account but the one it is set for. -/
theorem mem_accountIds_setIn {accountId x : AccountId} {mana : Mana} {entries : List Allotment}
    (h : x ∈ (setIn accountId mana entries).map Allotment.accountId) :
    x = accountId ∨ x ∈ entries.map Allotment.accountId := by
  fun_induction setIn accountId mana entries with
  | case1 => exact Or.inl (List.mem_singleton.mp h)
  | case2 a rest =>
    rcases List.mem_cons.mp h with rfl | h
    · exact Or.inl rfl
    · exact Or.inr (List.mem_cons_of_mem _ h)
  | case3 a rest _ ih =>
    rcases List.mem_cons.mp h with rfl | h
    · exact Or.inr List.mem_cons_self
    · exact (ih h).imp_right (List.mem_cons_of_mem _)

/-- Setting an amount keeps the accounts apart. -/
theorem nodup_setIn (accountId : AccountId) (mana : Mana) {entries : List Allotment}
    (h : (entries.map Allotment.accountId).Nodup) :
    ((setIn accountId mana entries).map Allotment.accountId).Nodup := by
  fun_induction setIn accountId mana entries with
  | case1 => exact List.nodup_cons.mpr ⟨List.not_mem_nil, List.nodup_nil⟩
  | case2 a rest heq =>
    subst heq
    exact h
  | case3 a rest hne ih =>
    obtain ⟨ha, hrest⟩ := List.nodup_cons.mp h
    refine List.nodup_cons.mpr ⟨fun hmem => ?_, ih hrest⟩
    rcases mem_accountIds_setIn hmem with heq | hmem
    · exact hne heq
    · exact ha hmem

/-- The mana allotted to an account. -/
def manaOf (a : Allotments) (accountId : AccountId) : Mana := manaIn accountId a.entries

/-- The allotments with another amount for an account. -/
def set (a : Allotments) (accountId : AccountId) (mana : Mana) : Allotments :=
  ⟨setIn accountId mana a.entries, nodup_setIn accountId mana a.nodup⟩

/-- **Reading after setting**: the account has the amount set, every other what it had. -/
theorem manaOf_set (a : Allotments) (accountId x : AccountId) (mana : Mana) :
    (a.set accountId mana).manaOf x = if accountId = x then mana else a.manaOf x := by
  obtain ⟨entries, _⟩ := a
  simp only [manaOf, set]
  fun_induction setIn accountId mana entries
  case case1 => simp only [manaIn]
  case case2 | case3 => grind [manaIn]

/-- Allots an account further mana. -/
def increase (a : Allotments) (accountId : AccountId) (mana : Mana) :
    Except ArithmeticError Allotments :=
  (checkedAdd (a.manaOf accountId) mana).map fun sum => a.set accountId sum

/-- The allotments in ascending order of accounts. -/
def sorted (a : Allotments) : Allotments where
  entries := sortAscending a.entries
  nodup := ((perm_sortAscending a.entries).map Allotment.accountId).nodup_iff.mpr a.nodup

/-- What allotting several accounts in turn leaves: the allotments, the additions that were made, and
the sum that stopped it. -/
structure Progress where
  allotments : Allotments
  made : List Allotment
  failure : Option ArithmeticError

/-- Allots accounts further mana in turn, up to the first sum that overflows. -/
def increaseAll (allotments : Allotments) : List Allotment → Progress
  | [] => ⟨allotments, [], none⟩
  | a :: rest =>
    match allotments.increase a.accountId a.mana with
    | .error e => ⟨allotments, [], some e⟩
    | .ok increased =>
      let progress := increaseAll increased rest
      { progress with made := a :: progress.made }

end Allotments

end ManaWallet
