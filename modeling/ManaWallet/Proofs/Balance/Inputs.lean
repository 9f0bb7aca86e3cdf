import ManaWallet.Proofs.Balance.Gathering
import Mathlib.Algebra.GroupWithZero.Nat

/-!
# Proofs/Balance/Inputs — the balance of inputs is worth their mana and the rewards

    yields ──of no account, or of one──▸ unbound and bound mana ──▸ worth
      └──────potential and stored──────▸ total

Every input adds its potential and its stored mana once: to the totals, and either to its account or
to the unbound mana (`Yield.brought_sources`).  So the parts of the balance add up to its totals
(`worth_balanceOf`), and the total to the mana of the inputs (`total_balanceOf`).
-/

namespace ManaWallet

namespace Yield

/-- All mana is potential or stored. -/
theorem sum_mana (yields : List Yield) :
    (yields.map mana).sum = brought yields .potential + brought yields .stored := by
  rw [brought, brought, ← List.sum_map_add]
  rfl

/-- **All mana is unbound or bound to one account.** -/
theorem brought_sources (yields : List Yield) :
    brought yields .unbound + ∑ a, brought yields (.bound a) = (yields.map mana).sum := by
  induction yields with
  | nil => simp [brought]
  | cons y rest ih =>
    have hcons : ∀ c, brought (y :: rest) c = y.share c + brought rest c := by
      intro c
      rw [← List.singleton_append, brought_append, brought_singleton]
    have hone : y.share .unbound + ∑ a, y.share (.bound a) = y.mana := by
      simp only [share]
      cases y.account with
      | none => simp
      | some account => simp [Finset.sum_ite_eq]
    simp only [hcons, Finset.sum_add_distrib, List.map_cons, List.sum_cons]
    omega

end Yield

namespace Protocol

variable {p : Protocol} {target : SlotIndex}

/-- **The balance of inputs is worth its total and the rewards.** -/
theorem worth_balanceOf {inputs : List Consumed} {rewards : Mana} {b : Balance}
    (h : p.balanceOf target inputs rewards = .ok b) :
    b.worth = b.total.toNat + b.rewards.toNat := by
  obtain ⟨yields, -, hholds⟩ := holds_balanceOf h
  have hsources := Yield.brought_sources yields
  rw [Yield.sum_mana] at hsources
  simp only [Balance.worth, hholds.boundTo, hholds.unbound, hholds.total, hholds.potential,
    hholds.stored, hholds.rewards]
  omega

/-! ## What an input counts for -/

/-- The mana of an input at a slot: its potential mana, and what is left of the mana it stores. -/
def manaOf (p : Protocol) (target : SlotIndex) (input : Consumed) : Except ManaError ℕ := do
  let potential ← p.schedule.potential input.2.amount input.1.creationSlot target
  let stored ← p.schedule.decayBySlots input.2.storedMana input.1.creationSlot target
  return potential.toNat + stored.toNat

/-- The mana of an input at a slot, as a number; none where it cannot be computed. -/
def worthOf (p : Protocol) (target : SlotIndex) (input : Consumed) : ℕ :=
  match p.manaOf target input with
  | .ok mana => mana
  | .error _ => 0

/-- What an input brings is its mana. -/
theorem manaOf_of_yieldOf {input : Consumed} {y : Yield} (h : p.yieldOf target input = .ok y) :
    p.manaOf target input = .ok y.mana ∧ p.worthOf target input = y.mana := by
  have hmana : p.manaOf target input = .ok y.mana := by
    simp only [yieldOf, bind_eq_ok_iff, pure_eq_ok_iff] at h
    obtain ⟨potential, hpotential, stored, hstored, rfl⟩ := h
    simp only [manaOf, bind_eq_ok_iff, pure_eq_ok_iff]
    exact ⟨potential, hpotential, stored, hstored, rfl⟩
  exact ⟨hmana, by rw [worthOf, hmana]⟩

/-- Inputs bring the mana of each. -/
theorem Brings.worthOf {inputs : List Consumed} {yields : List Yield}
    (h : p.Brings target inputs yields) :
    (∀ input ∈ inputs, p.manaOf target input = .ok (p.worthOf target input)) ∧
      (inputs.map (p.worthOf target)).sum = (yields.map Yield.mana).sum := by
  induction h with
  | nil => exact ⟨fun _ hnone => absurd hnone List.not_mem_nil, rfl⟩
  | cons hy _ ih =>
    obtain ⟨hmana, hworth⟩ := manaOf_of_yieldOf hy
    refine ⟨List.forall_mem_cons.mpr ⟨hworth ▸ hmana, ih.1⟩, ?_⟩
    rw [List.map_cons, List.sum_cons, List.map_cons, List.sum_cons, hworth, ih.2]

/-- **Every input counts once for each time it is listed**: the total of a balance is the sum of the
mana of its inputs, and its rewards are those it was made with. -/
theorem total_balanceOf {inputs : List Consumed} {rewards : Mana} {b : Balance}
    (h : p.balanceOf target inputs rewards = .ok b) :
    (∀ input ∈ inputs, p.manaOf target input = .ok (p.worthOf target input)) ∧
      b.total.toNat = (inputs.map (p.worthOf target)).sum ∧ b.rewards = rewards := by
  obtain ⟨yields, hyields, hholds⟩ := holds_balanceOf h
  obtain ⟨hall, hsum⟩ := hyields.worthOf
  refine ⟨hall, ?_, hholds.rewards⟩
  rw [hsum, Yield.sum_mana, hholds.total, hholds.potential, hholds.stored]

end Protocol

end ManaWallet
