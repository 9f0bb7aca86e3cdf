import ManaWallet.Proofs.Arithmetic.Totals
import ManaWallet.Proofs.Balance.Worth
import Mathlib.Data.List.Perm.Basic

/-!
# Proofs/Balance/Gathering — what inputs bring to a balance, in any order

    input ──potential and stored mana──▸ yield ──┬─ of an account ──▸ bound to it
                                                 └─ of none ────────▸ unbound

Inputs are added one by one, and every sum of a balance is checked at every step.  Partial sums only grow,
so all the same the outcome follows from what the inputs bring in total (`foldlM_addInput_eq_ok_iff`), and
not from their order (`balanceOf_perm`).  There is a balance exactly if each input brings something and
every total fits (`exists_balanceOf_iff`).
-/

namespace ManaWallet

/-- A checked computation of mana has the results of the arithmetic. -/
theorem checked_eq_ok_iff {α : Type} {x : Except ArithmeticError α} {a : α} :
    ManaSchedule.checked x = .ok a ↔ x = .ok a := mapError_eq_ok_iff

/-- What an input brings to a balance: its mana, and the account that this is bound to. -/
structure Yield where
  account : Option AccountId
  potential : Mana
  stored : Mana

/-- The sums that a balance keeps while inputs are added. -/
inductive Column where
  | potential
  | stored
  | unboundPotential
  | unboundStored
  | unbound
  | bound (account : AccountId)

namespace Yield

/-- All the mana of a yield. -/
def mana (y : Yield) : ℕ := y.potential.toNat + y.stored.toNat

/-- What a yield adds to a column. -/
def share (y : Yield) : Column → ℕ
  | .potential => y.potential.toNat
  | .stored => y.stored.toNat
  | .unboundPotential => if y.account = none then y.potential.toNat else 0
  | .unboundStored => if y.account = none then y.stored.toNat else 0
  | .unbound => if y.account = none then y.mana else 0
  | .bound account => if y.account = some account then y.mana else 0

/-- What yields add to a column. -/
def brought (yields : List Yield) (column : Column) : ℕ := (yields.map fun y => y.share column).sum

variable {y : Yield} {yields rest : List Yield} {column : Column}

theorem brought_append : brought (yields ++ rest) column = brought yields column + brought rest column := by
  rw [brought, List.map_append, List.sum_append, brought, brought]

theorem brought_singleton : brought [y] column = y.share column := Nat.add_zero _

theorem brought_perm (h : yields.Perm rest) : brought yields column = brought rest column :=
  (h.map _).sum_eq

/-- **Unbound mana is potential or stored.** -/
theorem brought_unbound (yields : List Yield) :
    brought yields .unbound = brought yields .unboundPotential + brought yields .unboundStored := by
  simp only [brought, ← List.sum_map_add]
  refine congrArg List.sum (List.map_congr_left fun y _ => ?_)
  simp only [share, mana]
  split <;> rfl

end Yield

namespace Balance

open Yield

/-! ## Columns -/

/-- The sum in a column. -/
def column (b : Balance) : Column → Mana
  | .potential => b.potential
  | .stored => b.stored
  | .unboundPotential => b.unboundPotential
  | .unboundStored => b.unboundStored
  | .unbound => b.unbound
  | .bound account => b.boundTo account

theorem toNat_column_empty (c : Column) : (({} : Balance).column c).toNat = 0 := by cases c <;> rfl

/-- An account has an entry of what is bound to it, or none. -/
theorem getElem?_bound (b : Balance) (a : AccountId) :
    b.bound[a]? = if a ∈ b.bound then some (b.boundTo a) else none := by
  simp only [boundTo_eq, Std.ExtTreeMap.mem_iff_isSome_getElem?]
  cases b.bound[a]? <;> rfl

/-- A balance that has gained what inputs bring, said by totals and not by the order of the inputs. -/
structure Gains (b : Balance) (yields : List Yield) (b' : Balance) : Prop where
  column : ∀ c, (b'.column c).toNat = (b.column c).toNat + brought yields c
  mem : ∀ a, a ∈ b'.bound ↔ a ∈ b.bound ∨ some a ∈ yields.map account
  total : b'.total = b.total
  rewards : b'.rewards = b.rewards

/-- A balance none of whose columns overflows when it gains what inputs bring. -/
def Room (b : Balance) (yields : List Yield) : Prop :=
  ∀ c, (b.column c).toNat + brought yields c < 2 ^ 64

namespace Gains

variable {b b' b'' : Balance} {yields rest : List Yield}

theorem nil (b : Balance) : b.Gains [] b := by
  refine ⟨fun c => rfl, fun a => ?_, rfl, rfl⟩
  rw [List.map_nil, or_iff_left List.not_mem_nil]

/-- Gains add up. -/
theorem append (h : b.Gains yields b') (h' : b'.Gains rest b'') : b.Gains (yields ++ rest) b'' where
  column c := by rw [h'.column, h.column, brought_append, Nat.add_assoc]
  mem a := by rw [h'.mem, h.mem, List.map_append, List.mem_append, or_assoc]
  total := h'.total.trans h.total
  rewards := h'.rewards.trans h.rewards

/-- The order of the inputs makes no difference. -/
theorem perm (h : b.Gains yields b') (hperm : yields.Perm rest) : b.Gains rest b' where
  column c := by rw [h.column, brought_perm hperm]
  mem a := by rw [h.mem, (hperm.map _).mem_iff]
  total := h.total
  rewards := h.rewards

/-- **What is gained is determined by what is brought.** -/
theorem unique (h : b.Gains yields b') (h' : b.Gains yields b'') : b' = b'' := by
  have hcolumn : ∀ c, b'.column c = b''.column c := fun c =>
    UInt64.toNat_inj.mp ((h.column c).trans (h'.column c).symm)
  have hbound : b'.bound = b''.bound := by
    refine Std.ExtTreeMap.ext_getElem? fun a => ?_
    have hmem : a ∈ b'.bound ↔ a ∈ b''.bound := (h.mem a).trans (h'.mem a).symm
    have hmana : b'.boundTo a = b''.boundTo a := hcolumn (.bound a)
    rw [getElem?_bound, getElem?_bound, if_congr hmem (congrArg some hmana) rfl]
  obtain ⟨_, _, _, _, _, _, _, _⟩ := b'
  obtain ⟨_, _, _, _, _, _, _, _⟩ := b''
  exact Balance.mk.injEq .. ▸ ⟨h.total.trans h'.total.symm, hcolumn .unbound, hcolumn .potential,
    hcolumn .stored, hcolumn .unboundPotential, hcolumn .unboundStored,
    h.rewards.trans h'.rewards.symm, hbound⟩

/-- An empty balance has gained all that it holds. -/
theorem of_empty (h : ({} : Balance).Gains yields b') (c : Column) :
    (b'.column c).toNat = brought yields c := by
  rw [h.column, toNat_column_empty, Nat.zero_add]

/-- A balance had room for what it has gained. -/
theorem room (h : b.Gains yields b') : b.Room yields := by
  intro c
  rw [← h.column c]
  exact (b'.column c).toNat_lt

/-- Room for all that is brought is room for the rest, once a part of it has been gained. -/
theorem room_rest (h : b.Gains yields b') (hroom : b.Room (yields ++ rest)) : b'.Room rest := by
  intro c
  rw [h.column c, Nat.add_assoc, ← brought_append]
  exact hroom c

end Gains

/-- Room for all that is brought is room for a part of it. -/
theorem Room.of_append {b : Balance} {yields rest : List Yield} (h : b.Room (yields ++ rest)) :
    b.Room yields := by
  intro c
  refine Nat.lt_of_le_of_lt ?_ (h c)
  rw [brought_append, ← Nat.add_assoc]
  exact Nat.le_add_right _ _

end Balance

namespace Protocol

open Balance

variable {p : Protocol} {target : SlotIndex} {b b' : Balance} {input : Consumed} {y : Yield}

/-! ## One input -/

/-- What an input brings at a slot. -/
def yieldOf (p : Protocol) (target : SlotIndex) (input : Consumed) : Except ManaError Yield := do
  let potential ← p.schedule.potential input.2.amount input.1.creationSlot target
  let stored ← p.schedule.decayBySlots input.2.storedMana input.1.creationSlot target
  return ⟨input.2.accountId?.map fun account => account.orOfOutputId input.1, potential, stored⟩

/-- What an input brings is of the account that the input belongs to. -/
theorem account_yieldOf (hy : p.yieldOf target input = .ok y) :
    y.account = input.2.accountId?.map fun account => account.orOfOutputId input.1 := by
  simp only [yieldOf, bind_eq_ok_iff, pure_eq_ok_iff] at hy
  obtain ⟨potential, -, stored, -, rfl⟩ := hy
  rfl

/-- Mana of an account is bound to it. -/
theorem gains_of_account {account : AccountId} {potential stored potentialSum storedSum bound : Mana}
    (hpotential : potentialSum.toNat = b.potential.toNat + potential.toNat)
    (hstored : storedSum.toNat = b.stored.toNat + stored.toNat)
    (hbound : bound.toNat = (b.boundTo account).toNat + (potential.toNat + stored.toNat)) :
    b.Gains [⟨some account, potential, stored⟩]
      { b with
        potential := potentialSum
        stored := storedSum
        bound := b.bound.insert account bound } where
  column c := by
    rw [Yield.brought_singleton]
    cases c with
    | potential => exact hpotential
    | stored => exact hstored
    | unboundPotential | unboundStored | unbound => rfl
    | bound a =>
      have hinsert := boundTo_insert b account a bound
      have hshare : Yield.share ⟨some account, potential, stored⟩ (.bound a)
          = if account = a then potential.toNat + stored.toNat else 0 := by
        simp only [Yield.share, Yield.mana, Option.some.injEq]
      refine (congrArg UInt64.toNat hinsert).trans ?_
      rw [hshare]
      split
      · next heq => rw [hbound, heq]; rfl
      · rfl
  mem a := by
    rw [Std.ExtTreeMap.mem_insert, Std.compare_eq_iff_eq, List.map_singleton, List.mem_singleton,
      Option.some.injEq, or_comm, eq_comm]
  total := rfl
  rewards := rfl

/-- Mana of no account is unbound. -/
theorem gains_of_none {potential stored potentialSum storedSum unboundPotential unboundStored
    unbound : Mana} (hpotential : potentialSum.toNat = b.potential.toNat + potential.toNat)
    (hstored : storedSum.toNat = b.stored.toNat + stored.toNat)
    (hunboundPotential : unboundPotential.toNat = b.unboundPotential.toNat + potential.toNat)
    (hunboundStored : unboundStored.toNat = b.unboundStored.toNat + stored.toNat)
    (hunbound : unbound.toNat = b.unbound.toNat + (potential.toNat + stored.toNat)) :
    b.Gains [⟨none, potential, stored⟩]
      { b with
        potential := potentialSum
        stored := storedSum
        unboundPotential
        unboundStored
        unbound } where
  column c := by
    rw [Yield.brought_singleton]
    cases c with
    | potential => exact hpotential
    | stored => exact hstored
    | unboundPotential => exact hunboundPotential
    | unboundStored => exact hunboundStored
    | unbound => exact hunbound
    | bound a => rfl
  mem a := by simp
  total := rfl
  rewards := rfl

/-- **One input** adds what it brings, each part to its columns. -/
theorem gains_addInput (h : p.addInput target b input = .ok b') :
    ∃ y, p.yieldOf target input = .ok y ∧ b.Gains [y] b' := by
  obtain ⟨id, output⟩ := input
  simp only [addInput, bind_eq_ok_iff, checked_eq_ok_iff] at h
  obtain ⟨potential, hpotential, stored, hstored, potentialSum, hpotentialSum, storedSum,
    hstoredSum, h⟩ := h
  refine ⟨⟨output.accountId?.map fun account => account.orOfOutputId id, potential, stored⟩, ?_, ?_⟩
  · simp only [yieldOf, bind_eq_ok_iff]
    exact ⟨potential, hpotential, stored, hstored, rfl⟩
  rw [checkedAdd_eq_ok_iff] at hpotentialSum hstoredSum
  cases haccount : output.accountId? with
  | some account =>
    simp only [haccount, Balance.bind, bind_eq_ok_iff, checkedAdd_eq_ok_iff, pure_eq_ok_iff] at h
    obtain ⟨sum, hsum, bound, hbound, rfl⟩ := h
    exact gains_of_account hpotentialSum hstoredSum (hsum ▸ hbound)
  | none =>
    simp only [haccount, bind_eq_ok_iff, checkedAdd_eq_ok_iff, pure_eq_ok_iff] at h
    obtain ⟨unboundPotential, hunboundPotential, unboundStored, hunboundStored, sum, hsum, unbound,
      hunbound, rfl⟩ := h
    exact gains_of_none hpotentialSum hstoredSum hunboundPotential hunboundStored (hsum ▸ hunbound)

/-- **An input can be added where there is room** for what it brings. -/
theorem exists_addInput (hy : p.yieldOf target input = .ok y) (hroom : b.Room [y]) :
    ∃ b', p.addInput target b input = .ok b' := by
  obtain ⟨id, output⟩ := input
  have hword : ∀ c, ∃ sum : Mana, sum.toNat = (b.column c).toNat + y.share c := fun c =>
    exists_word (Yield.brought_singleton ▸ hroom c)
  have hmana : ∀ {sum : Mana} {held : ℕ}, sum.toNat = held + y.mana → y.mana < 2 ^ 64 := fun h =>
    Nat.lt_of_le_of_lt (h ▸ Nat.le_add_left _ _) (UInt64.toNat_lt _)
  obtain ⟨potentialSum, hpotentialSum⟩ := hword .potential
  obtain ⟨storedSum, hstoredSum⟩ := hword .stored
  simp only [yieldOf, bind_eq_ok_iff, pure_eq_ok_iff] at hy
  obtain ⟨potential, hpotential, stored, hstored, hy⟩ := hy
  cases haccount : output.accountId? with
  | some account =>
    have hsource : y.account = some (account.orOfOutputId id) := by rw [← hy, haccount]; rfl
    obtain ⟨bound, hbound⟩ := hword (.bound (account.orOfOutputId id))
    rw [Yield.share, if_pos hsource] at hbound
    obtain ⟨sum, hsum⟩ := exists_word (hmana hbound)
    subst hy
    simp only [addInput, bind_eq_ok_iff, checked_eq_ok_iff, checkedAdd_eq_ok_iff, haccount, Balance.bind]
    exact ⟨_, potential, hpotential, stored, hstored, potentialSum, hpotentialSum, storedSum,
      hstoredSum, sum, hsum, bound, hsum ▸ hbound, rfl⟩
  | none =>
    have hsource : y.account = none := by rw [← hy, haccount]; rfl
    obtain ⟨unboundPotential, hunboundPotential⟩ := hword .unboundPotential
    obtain ⟨unboundStored, hunboundStored⟩ := hword .unboundStored
    obtain ⟨unbound, hunbound⟩ := hword .unbound
    simp only [Yield.share, if_pos hsource] at hunboundPotential hunboundStored hunbound
    obtain ⟨sum, hsum⟩ := exists_word (hmana hunbound)
    subst hy
    simp only [addInput, bind_eq_ok_iff, checked_eq_ok_iff, checkedAdd_eq_ok_iff, haccount]
    exact ⟨_, potential, hpotential, stored, hstored, potentialSum, hpotentialSum, storedSum,
      hstoredSum, unboundPotential, hunboundPotential, unboundStored, hunboundStored, sum, hsum, unbound,
      hsum ▸ hunbound, rfl⟩

/-! ## All inputs -/

/-- What inputs bring at a slot, one by one. -/
def Brings (p : Protocol) (target : SlotIndex) (inputs : List Consumed) (yields : List Yield) : Prop :=
  List.Forall₂ (fun input y => p.yieldOf target input = .ok y) inputs yields

/-- Each input brings one thing. -/
theorem Brings.unique {inputs : List Consumed} {yields yields' : List Yield}
    (h : p.Brings target inputs yields) (h' : p.Brings target inputs yields') : yields = yields' := by
  refine List.right_unique_forall₂' (fun input y y' hy hy' => ?_) h h'
  exact Except.ok.inj (hy.symm.trans hy')

/-- Inputs in another order bring the same in another order. -/
theorem Brings.perm {inputs inputs' : List Consumed} {yields : List Yield}
    (h : p.Brings target inputs yields) (hperm : inputs'.Perm inputs) :
    ∃ yields', p.Brings target inputs' yields' ∧ yields'.Perm yields :=
  List.perm_comp_forall₂ hperm h

/-- Yields are of the accounts that the inputs belong to. -/
theorem Brings.map_account {inputs : List Consumed} {yields : List Yield}
    (h : p.Brings target inputs yields) : yields.map Yield.account
      = inputs.map fun input => input.2.accountId?.map fun account => account.orOfOutputId input.1 := by
  induction h with
  | nil => rfl
  | cons hy _ ih => rw [List.map_cons, List.map_cons, account_yieldOf hy, ih]

/-- Inputs that were added have gained the balance what they bring in total. -/
theorem gains_of_foldlM {inputs : List Consumed}
    (h : inputs.foldlM (p.addInput target) b = .ok b') :
    ∃ yields, p.Brings target inputs yields ∧ b.Gains yields b' := by
  induction inputs generalizing b with
  | nil =>
    obtain rfl := pure_eq_ok_iff.mp h
    exact ⟨[], .nil, .nil b⟩
  | cons input rest ih =>
    rw [List.foldlM_cons] at h
    obtain ⟨mid, hmid, hrest⟩ := bind_eq_ok_iff.mp h
    obtain ⟨y, hy, hgains⟩ := gains_addInput hmid
    obtain ⟨yields, hyields, hgains'⟩ := ih hrest
    exact ⟨y :: yields, .cons hy hyields, hgains.append hgains'⟩

/-- Inputs can be added one by one where there is room for what they bring in total: each needs a part
of it. -/
theorem exists_foldlM {inputs : List Consumed} {yields : List Yield}
    (hyields : p.Brings target inputs yields) (hroom : b.Room yields) :
    ∃ b', inputs.foldlM (p.addInput target) b = .ok b' := by
  induction hyields generalizing b with
  | nil => exact ⟨b, rfl⟩
  | @cons input y inputs yields hy _ ih =>
    rw [← List.singleton_append] at hroom
    obtain ⟨mid, hmid⟩ := exists_addInput hy hroom.of_append
    obtain ⟨y', hy', hgains⟩ := gains_addInput hmid
    obtain rfl := Except.ok.inj (hy.symm.trans hy')
    obtain ⟨b', hb'⟩ := ih (hgains.room_rest hroom)
    exact ⟨b', bind_eq_ok_iff.mpr ⟨mid, hmid, hb'⟩⟩

/-- **The closed form of adding inputs**: they can be added one by one exactly if each brings something
and the balance has room for all of it, and then the balance has gained that. -/
theorem foldlM_addInput_eq_ok_iff {inputs : List Consumed} :
    inputs.foldlM (p.addInput target) b = .ok b' ↔
      ∃ yields, p.Brings target inputs yields ∧ b.Gains yields b' := by
  refine ⟨gains_of_foldlM, ?_⟩
  rintro ⟨yields, hyields, hgains⟩
  obtain ⟨found, hfound⟩ := exists_foldlM hyields hgains.room
  obtain ⟨yields', hyields', hgains'⟩ := gains_of_foldlM hfound
  obtain rfl := hyields.unique hyields'
  rw [hfound, hgains.unique hgains']

/-- **The inputs may come in any order.** -/
theorem balanceOf_perm {inputs inputs' : List Consumed} {rewards : Mana} (h : inputs'.Perm inputs) :
    p.balanceOf target inputs' rewards = .ok b ↔ p.balanceOf target inputs rewards = .ok b := by
  have hone : ∀ {inputs inputs' : List Consumed} {summed : Balance}, inputs'.Perm inputs →
      inputs.foldlM (p.addInput target) {} = .ok summed →
      inputs'.foldlM (p.addInput target) {} = .ok summed := by
    intro inputs inputs' summed hperm hrun
    obtain ⟨yields, hyields, hgains⟩ := foldlM_addInput_eq_ok_iff.mp hrun
    obtain ⟨yields', hyields', hsame⟩ := hyields.perm hperm
    exact foldlM_addInput_eq_ok_iff.mpr ⟨yields', hyields', hgains.perm hsame.symm⟩
  simp only [balanceOf, bind_eq_ok_iff]
  exact exists_congr fun summed => and_congr_left fun _ => ⟨hone h.symm, hone h⟩

/-! ## The balance -/

/-- Rewards are added to the unbound mana, and the total is that of potential and stored mana. -/
theorem closeInputs_eq_ok_iff {rewards : Mana} :
    closeInputs b rewards = .ok b' ↔
      ∃ unbound : Mana, unbound.toNat = b.unbound.toNat + rewards.toNat ∧
        ∃ total : Mana, total.toNat = b.potential.toNat + b.stored.toNat ∧
          { b with rewards, unbound, total } = b' := by
  simp only [closeInputs, bind_eq_ok_iff, checkedAdd_eq_ok_iff, pure_eq_ok_iff]

/-- Yields and rewards of which every sum fits in 64 bits. -/
structure Fits (yields : List Yield) (rewards : Mana) : Prop where
  columns : ∀ c, Yield.brought yields c < 2 ^ 64
  unbound : Yield.brought yields .unbound + rewards.toNat < 2 ^ 64
  total : Yield.brought yields .potential + Yield.brought yields .stored < 2 ^ 64

/-- A balance that holds what inputs bring and rewards. -/
structure Holds (yields : List Yield) (rewards : Mana) (b : Balance) : Prop where
  potential : b.potential.toNat = Yield.brought yields .potential
  stored : b.stored.toNat = Yield.brought yields .stored
  unboundPotential : b.unboundPotential.toNat = Yield.brought yields .unboundPotential
  unboundStored : b.unboundStored.toNat = Yield.brought yields .unboundStored
  unbound : b.unbound.toNat = Yield.brought yields .unbound + rewards.toNat
  boundTo : ∀ a, (b.boundTo a).toNat = Yield.brought yields (.bound a)
  mem : ∀ a, a ∈ b.bound ↔ some a ∈ yields.map Yield.account
  total : b.total.toNat = b.potential.toNat + b.stored.toNat
  rewards : b.rewards = rewards

/-- Sums that a balance holds fit. -/
theorem Holds.fits {yields : List Yield} {rewards : Mana} (h : Holds yields rewards b) :
    Fits yields rewards := by
  have hunbound : Yield.brought yields .unbound + rewards.toNat < 2 ^ 64 :=
    h.unbound ▸ b.unbound.toNat_lt
  refine ⟨fun c => ?_, hunbound, ?_⟩
  · cases c with
    | potential => exact h.potential ▸ b.potential.toNat_lt
    | stored => exact h.stored ▸ b.stored.toNat_lt
    | unboundPotential => exact h.unboundPotential ▸ b.unboundPotential.toNat_lt
    | unboundStored => exact h.unboundStored ▸ b.unboundStored.toNat_lt
    | unbound => exact Nat.lt_of_le_of_lt (Nat.le_add_right _ _) hunbound
    | bound a => exact h.boundTo a ▸ (b.boundTo a).toNat_lt
  · rw [← h.potential, ← h.stored, ← h.total]
    exact b.total.toNat_lt

/-- The balance of inputs holds what they bring. -/
theorem holds_balanceOf {inputs : List Consumed} {rewards : Mana}
    (h : p.balanceOf target inputs rewards = .ok b) :
    ∃ yields, p.Brings target inputs yields ∧ Holds yields rewards b := by
  obtain ⟨summed, hsummed, hclose⟩ := bind_eq_ok_iff.mp h
  obtain ⟨yields, hyields, hgains⟩ := gains_of_foldlM hsummed
  obtain ⟨unbound, hunbound, total, htotal, rfl⟩ :=
    closeInputs_eq_ok_iff.mp (checked_eq_ok_iff.mp hclose)
  have hcolumn := hgains.of_empty
  refine ⟨yields, hyields, hcolumn .potential, hcolumn .stored, hcolumn .unboundPotential,
    hcolumn .unboundStored, ?_, fun a => hcolumn (.bound a), ?_, htotal, rfl⟩
  · exact hunbound.trans (congrArg (· + rewards.toNat) (hcolumn .unbound))
  · intro a
    have hempty : a ∉ ({} : Balance).bound := Std.ExtTreeMap.not_mem_empty
    exact (hgains.mem a).trans (or_iff_right hempty)

/-- **Inputs have a balance exactly if each brings something and the sums fit.** -/
theorem exists_balanceOf_iff {inputs : List Consumed} {rewards : Mana} :
    (∃ b, p.balanceOf target inputs rewards = .ok b) ↔
      ∃ yields, p.Brings target inputs yields ∧ Fits yields rewards := by
  constructor
  · rintro ⟨b, hb⟩
    obtain ⟨yields, hyields, hholds⟩ := holds_balanceOf hb
    exact ⟨yields, hyields, hholds.fits⟩
  · rintro ⟨yields, hyields, hfits⟩
    have hroom : ({} : Balance).Room yields := by
      intro c
      rw [toNat_column_empty, Nat.zero_add]
      exact hfits.columns c
    obtain ⟨summed, hsummed⟩ := exists_foldlM hyields hroom
    obtain ⟨yields', hyields', hgains⟩ := gains_of_foldlM hsummed
    obtain rfl := hyields.unique hyields'
    have hcolumn := hgains.of_empty
    obtain ⟨unbound, hunbound⟩ := exists_word hfits.unbound
    obtain ⟨total, htotal⟩ := exists_word hfits.total
    rw [← hcolumn .unbound] at hunbound
    rw [← hcolumn .potential, ← hcolumn .stored] at htotal
    have hclose := closeInputs_eq_ok_iff.mpr ⟨unbound, hunbound, total, htotal, rfl⟩
    exact ⟨_, bind_eq_ok_iff.mpr ⟨summed, hsummed, checked_eq_ok_iff.mpr hclose⟩⟩

end Protocol

end ManaWallet
