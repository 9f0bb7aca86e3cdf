import ManaWallet.Proofs.Order
import ManaWallet.Proofs.Result
import Mathlib.Algebra.BigOperators.Group.List.Basic
import Mathlib.Algebra.GroupWithZero.Nat
import Mathlib.Data.Finset.Card

/-!
# Proofs/Allotments — what accounts gain when they are allotted mana

Entries hand an account the sum of what they allot it.  In the allotments of a transaction that is one
entry (`gain_entries`); steps that allot further mana add up (`gains_increaseAll`), and leave an entry for
every account that gained some.
-/

namespace ManaWallet

/-- The mana that entries hand to an account. -/
def Allotment.gain (entries : List Allotment) (account : AccountId) : ℕ :=
  ((entries.filter fun a => a.accountId = account).map fun a => a.mana.toNat).sum

namespace Allotments

open Allotment

/-! ## One entry per account -/

theorem gain_cons (a : Allotment) (rest : List Allotment) (account : AccountId) :
    gain (a :: rest) account
      = (if a.accountId = account then a.mana.toNat else 0) + gain rest account := by
  by_cases h : a.accountId = account <;> simp [gain, h]

/-- Entries that do not name an account hand it nothing. -/
theorem gain_eq_zero {entries : List Allotment} {account : AccountId}
    (h : account ∉ entries.map Allotment.accountId) : gain entries account = 0 := by
  have hnil : (entries.filter fun a => a.accountId = account) = [] := by
    refine List.filter_eq_nil_iff.mpr fun a ha => ?_
    rw [decide_eq_true_eq]
    exact fun heq => h (heq ▸ List.mem_map_of_mem ha)
  rw [gain, hnil]
  rfl

/-- Where accounts are named once, the entry of an account is all it is handed. -/
theorem gain_of_mem {entries : List Allotment} {a : Allotment}
    (hnodup : (entries.map Allotment.accountId).Nodup) (h : a ∈ entries) :
    gain entries a.accountId = a.mana.toNat := by
  induction entries with
  | nil => nomatch h
  | cons x rest ih =>
    obtain ⟨hx, hrest⟩ := List.nodup_cons.mp hnodup
    rw [gain_cons]
    rcases List.mem_cons.mp h with rfl | hmem
    · rw [if_pos rfl, gain_eq_zero hx, Nat.add_zero]
    · have hne : x.accountId ≠ a.accountId := fun heq => hx (heq ▸ List.mem_map_of_mem hmem)
      rw [if_neg hne, ih hrest hmem, Nat.zero_add]

/-- **The mana allotted to an account is what its entries hand it.** -/
theorem gain_entries (a : Allotments) (account : AccountId) :
    gain a.entries account = (a.manaOf account).toNat := by
  obtain ⟨entries, hnodup⟩ := a
  unfold manaOf
  induction entries with
  | nil => rfl
  | cons x rest ih =>
    obtain ⟨hx, hrest⟩ := List.nodup_cons.mp hnodup
    rw [gain_cons, manaIn]
    by_cases heq : x.accountId = account
    · rw [if_pos heq, if_pos heq, gain_eq_zero (heq ▸ hx), Nat.add_zero]
    · rw [if_neg heq, if_neg heq, Nat.zero_add]
      exact ih hrest

/-! ## Accounts -/

/-- The accounts with an entry. -/
def accounts (a : Allotments) : Finset AccountId := (a.entries.map Allotment.accountId).toFinset

theorem card_accounts (a : Allotments) : a.accounts.card = a.size :=
  (List.toFinset_card_of_nodup a.nodup).trans (List.length_map _)

/-- An account without an entry is allotted nothing. -/
theorem mem_accounts_of_manaOf {a : Allotments} {account : AccountId} (h : a.manaOf account ≠ 0) :
    account ∈ a.accounts := by
  rw [accounts, List.mem_toFinset]
  by_contra hnot
  have hzero := gain_eq_zero hnot
  rw [gain_entries] at hzero
  exact h (UInt64.toNat_inj.mp hzero)

/-- An entry is that of an account which has one, with what the account is allotted. -/
theorem mem_entries_iff {a : Allotments} {x : Allotment} :
    x ∈ a.entries ↔ x.accountId ∈ a.accounts ∧ a.manaOf x.accountId = x.mana := by
  have hmana : ∀ {y : Allotment}, y ∈ a.entries → a.manaOf y.accountId = y.mana := by
    intro y hy
    exact UInt64.toNat_inj.mp ((gain_entries a y.accountId).symm.trans (gain_of_mem a.nodup hy))
  rw [accounts, List.mem_toFinset]
  refine ⟨fun hx => ⟨List.mem_map_of_mem hx, hmana hx⟩, ?_⟩
  rintro ⟨haccount, hx⟩
  obtain ⟨⟨account, mana⟩, hy, rfl⟩ := List.mem_map.mp haccount
  have heq : mana = x.mana := (hmana hy).symm.trans hx
  subst heq
  exact hy

/-- Setting an amount adds the account it is set for. -/
theorem accounts_set (a : Allotments) (account : AccountId) (mana : Mana) :
    (a.set account mana).accounts = insert account a.accounts := by
  simp only [accounts, set]
  generalize a.entries = entries
  fun_induction setIn account mana entries with
  | case1 => rfl
  | case2 x rest heq =>
    subst heq
    simp
  | case3 x rest _ ih =>
    rw [List.map_cons, List.toFinset_cons, ih, List.map_cons, List.toFinset_cons, Finset.insert_comm]

/-- Allotting further mana adds the account it goes to. -/
theorem accounts_increase {a a' : Allotments} {account : AccountId} {mana : Mana}
    (h : a.increase account mana = .ok a') : a'.accounts = insert account a.accounts := by
  obtain ⟨sum, -, rfl⟩ := map_eq_ok_iff.mp h
  exact accounts_set a account sum

/-! ## Gains -/

/-- Allotments that give accounts further mana; those that gain some have an entry then, and no entry is
lost. -/
structure Gains (a a' : Allotments) (more : AccountId → ℕ) : Prop where
  mana : ∀ x, (a'.manaOf x).toNat = (a.manaOf x).toNat + more x
  accounts : ∀ x, x ∈ a'.accounts ↔ x ∈ a.accounts ∨ more x ≠ 0

/-- Allotments as they are give nothing. -/
theorem Gains.refl (a : Allotments) : a.Gains a fun _ => 0 :=
  ⟨fun _ => rfl, fun _ => by simp⟩

/-- Gains add up. -/
theorem Gains.trans {a a' a'' : Allotments} {more more' : AccountId → ℕ} (h : a.Gains a' more)
    (h' : a'.Gains a'' more') : a.Gains a'' fun x => more x + more' x where
  mana x := by rw [h'.mana, h.mana, Nat.add_assoc]
  accounts x := by rw [h'.accounts, h.accounts, or_assoc, ← not_and_or, ← Nat.add_eq_zero_iff]

/-- **An account gains what it is allotted**, and no other account gains anything. -/
theorem gains_increase {a a' : Allotments} {account : AccountId} {mana : Mana} (hmana : mana ≠ 0)
    (h : a.increase account mana = .ok a') :
    a.Gains a' fun x => if account = x then mana.toNat else 0 := by
  have haccounts := accounts_increase h
  obtain ⟨sum, hsum, rfl⟩ := map_eq_ok_iff.mp h
  rw [checkedAdd_eq_ok_iff] at hsum
  constructor <;> intro x
  · rw [manaOf_set]
    split
    · next heq => rw [hsum, heq]
    · rfl
  · have hne : mana.toNat ≠ 0 := fun hzero => hmana (UInt64.toNat_inj.mp hzero)
    rw [haccounts, Finset.mem_insert, or_comm, eq_comm]
    simp [hne]

/-- **Several steps give an account the sum of those that name it.** -/
theorem gains_increaseAll {a : Allotments} {steps : List Allotment}
    (hsteps : ∀ step ∈ steps, step.mana ≠ 0) (h : (a.increaseAll steps).failure = none) :
    a.Gains (a.increaseAll steps).allotments (gain steps) := by
  induction steps generalizing a with
  | nil => exact .refl a
  | cons step rest ih =>
    obtain ⟨hmana, hrest⟩ := List.forall_mem_cons.mp hsteps
    rw [increaseAll] at h ⊢
    cases hstep : a.increase step.accountId step.mana with
    | error e =>
      rw [hstep] at h
      nomatch h
    | ok increased =>
      rw [hstep] at h
      have hgains := (gains_increase hmana hstep).trans (ih hrest h)
      simpa only [← gain_cons] using hgains

/-- Allotments none of which is of nothing. -/
def Positive (a : Allotments) : Prop := ∀ x ∈ a.entries, x.mana ≠ 0

/-- **Gains add no entry of nothing.** -/
theorem Gains.positive {a a' : Allotments} {more : AccountId → ℕ} (h : a.Gains a' more)
    (hpositive : a.Positive) : a'.Positive := by
  intro x hx hzero
  obtain ⟨haccount, hmana⟩ := mem_entries_iff.mp hx
  have hsum := h.mana x.accountId
  rw [hmana, hzero] at hsum
  obtain ⟨hheld, hmore⟩ := Nat.add_eq_zero_iff.mp hsum.symm
  obtain hbefore | hgained := (h.accounts x.accountId).mp haccount
  · have hentry : ⟨x.accountId, 0⟩ ∈ a.entries :=
      mem_entries_iff.mpr ⟨hbefore, UInt64.toNat_inj.mp hheld⟩
    exact hpositive _ hentry rfl
  · exact hgained hmore

/-! ## Sorting -/

/-- Sorted allotments allot every account the same. -/
theorem manaOf_sorted (a : Allotments) (account : AccountId) :
    a.sorted.manaOf account = a.manaOf account := by
  have hperm := ((perm_sortAscending a.entries).filter fun x => x.accountId = account).map
    fun x => x.mana.toNat
  exact UInt64.toNat_inj.mp ((gain_entries _ _).symm.trans (hperm.sum_eq.trans (gain_entries a account)))

/-- Allotments that allot the same have the same entries, if in another order. -/
theorem perm_entries {a a' : Allotments} (haccounts : a.accounts = a'.accounts)
    (hmana : ∀ x, a.manaOf x = a'.manaOf x) : a.entries.Perm a'.entries := by
  refine (List.perm_ext_iff_of_nodup (.of_map _ a.nodup) (.of_map _ a'.nodup)).mpr fun x => ?_
  rw [mem_entries_iff, mem_entries_iff, haccounts, hmana]

/-- Allotments are their entries. -/
theorem ext_entries {a a' : Allotments} (h : a.entries = a'.entries) : a = a' := by
  obtain ⟨entries, nodup⟩ := a
  obtain rfl : entries = a'.entries := h
  rfl

/-- Entries in ascending order are those of the sorted allotments. -/
theorem entries_sorted_eq {a : Allotments} {entries : List Allotment} (h : a.entries.Perm entries)
    (hsorted : entries.Pairwise fun x y => (compareOn sortKey x y).isLE) : a.sorted.entries = entries := by
  refine sortAscending_eq h hsorted fun x hx y hy hkey => ?_
  have haccount : x.accountId = y.accountId := congrArg ChainName.mk (byteKey_injective hkey)
  exact List.inj_on_of_nodup_map a.nodup hx hy haccount

/-- **Sorted allotments show no order of the entries before.** -/
theorem sorted_eq_of_perm {a a' : Allotments} (h : a.entries.Perm a'.entries) :
    a.sorted = a'.sorted :=
  ext_entries (entries_sorted_eq (h.trans (perm_sortAscending a'.entries).symm)
    (pairwise_sortAscending a'.entries))

/-- Sorted allotments name the accounts in ascending order, each of them once. -/
theorem ascending_sorted (a : Allotments) :
    a.sorted.entries.Pairwise fun x y => compare x.accountId y.accountId = .lt := by
  have hdistinct := List.pairwise_map.mp a.sorted.nodup
  refine List.Pairwise.imp₂ (fun x y hle hne => ?_) (pairwise_sortAscending a.entries) hdistinct
  have hkey : compareOn sortKey x y = compare x.accountId y.accountId :=
    compareOn_byteKey x.accountId.bytes y.accountId.bytes
  rw [hkey] at hle
  obtain hlt | heq := Ordering.isLE_iff_eq_lt_or_eq_eq.mp hle
  · exact hlt
  · exact absurd (Std.compare_eq_iff_eq.mp heq) hne

theorem size_sorted (a : Allotments) : a.sorted.size = a.size := (perm_sortAscending a.entries).length_eq

end Allotments

end ManaWallet
