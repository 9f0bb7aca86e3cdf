import ManaWallet.Proofs.Allotments
import ManaWallet.Proofs.Balance.Claims
import ManaWallet.Proofs.Balance.Inputs
import ManaWallet.Proofs.Standard

/-!
# Proofs/Balance/Left — what a transaction leaves of the mana of its inputs

    balance of the inputs ──outputs, then allotments──▸ balance left

A transaction claims the mana that its outputs store and its allotments hand out, an output of the account
that it stays bound to, if there is one (`Protocol.boundAccount?_eq_some_iff`).  The balance left has a closed
form in the totals claimed of each account (`Protocol.Settles`): no account goes below nothing, the unbound
mana covers what is missing, and no mana is lost.
-/

namespace ManaWallet

namespace Transaction

/-- All the mana that outputs store and accounts are allotted. -/
def assigned (t : Transaction) : ℕ :=
  (t.outputs.map fun o => o.storedMana.toNat).sum
    + (t.allotments.entries.map fun a => a.mana.toNat).sum

end Transaction

/-- An output is locked up to a slot if its lock names that slot or a later one. -/
theorem UnlockConditions.isLockedUntil_iff {c : UnlockConditions} {slot : SlotIndex} :
    c.isLockedUntil slot ↔ ∃ locked, c.timelock = some locked ∧ slot.toNat ≤ locked.toNat := by
  cases h : c.timelock <;> simp [isLockedUntil, h, UInt32.le_iff_toNat_le]

namespace Protocol

/-! ## Outputs of an account -/

/-- **Which outputs keep mana bound to an account**: its own, and those that no other address unlocks and
that stay locked for as long as the transaction can still be committed to, or up to the last slot. -/
theorem boundAccount?_eq_some_iff {p : Protocol} {created : SlotIndex} {o : Output}
    {account : AccountId} :
    p.boundAccount? created o = some account ↔
      o.accountId? = some account ∨
        o.accountId? = none ∧ o.conditions.address = some (.account account) ∧
          ∃ locked, o.conditions.timelock = some locked ∧
            min (created.toNat + p.parameters.maxCommittableAge.toNat) (2 ^ 32 - 1) ≤ locked.toNat := by
  have hhorizon : min (created.toNat + p.parameters.maxCommittableAge.toNat) (2 ^ 32 - 1)
      = (UInt32.ofNat (min (created.toNat + p.parameters.maxCommittableAge.toNat)
          (UInt32.size - 1))).toNat :=
    (UInt32.toNat_ofNat_of_lt' (Nat.lt_of_le_of_lt (Nat.min_le_right _ _) (by decide))).symm
  rw [hhorizon, ← UnlockConditions.isLockedUntil_iff]
  simp only [boundAccount?]
  generalize UInt32.ofNat _ = horizon
  cases haccount : o.accountId? with
  | some own => simp
  | none =>
    dsimp only
    split
    · next hlocked =>
      cases haddress : o.conditions.address with
      | none => simp
      | some address => cases address <;> simp [hlocked]
    · next hlocked => simp [hlocked]

/-! ## Claims of a transaction -/

/-- The mana stored by those outputs of a transaction whose mana stays bound to an account, or by
those whose mana is bound to none. -/
def storedFor (p : Protocol) (t : Transaction) (source : Option AccountId) : ℕ :=
  ((t.outputs.filter fun o => p.boundAccount? t.creationSlot o = source).map
    fun o => o.storedMana.toNat).sum

/-- The mana that a transaction claims of an account: what its outputs keep bound to it, and what the
account is allotted. -/
def claimedOf (p : Protocol) (t : Transaction) (account : AccountId) : ℕ :=
  p.storedFor t (some account) + Allotment.gain t.allotments.entries account

/-- The unbound mana that a transaction needs: what its other outputs store, and what it claims of
accounts beyond what is bound to them. -/
noncomputable def needed (p : Protocol) (t : Transaction) (b : Balance) : ℕ :=
  p.storedFor t none + ∑ a, (p.claimedOf t a - (b.boundTo a).toNat)

/-- The claims of a transaction in the order they are taken. -/
def claims (p : Protocol) (t : Transaction) : List Claim :=
  (t.outputs.map fun o => ⟨p.boundAccount? t.creationSlot o, o.storedMana⟩)
    ++ t.allotments.entries.map fun a => ⟨some a.accountId, a.mana⟩

variable {p : Protocol} {t t' : Transaction}

/-- An account is claimed what outputs store for it and what it is allotted. -/
theorem claimedOf_eq (p : Protocol) (t : Transaction) (a : AccountId) :
    p.claimedOf t a = p.storedFor t (some a) + (t.allotments.manaOf a).toNat := by
  rw [claimedOf, Allotments.gain_entries]

theorem asked_claims_none (p : Protocol) (t : Transaction) :
    Claim.asked (p.claims t) none = p.storedFor t none := by
  have hallot : Claim.asked (t.allotments.entries.map fun a => ⟨some a.accountId, a.mana⟩) none = 0 :=
    Claim.asked_eq_zero (by simp)
  rw [claims, Claim.asked_append, hallot, Nat.add_zero, Claim.asked, List.filter_map, List.map_map]
  rfl

theorem asked_claims_some (p : Protocol) (t : Transaction) (a : AccountId) :
    Claim.asked (p.claims t) (some a) = p.claimedOf t a := by
  have hallot : Claim.asked (t.allotments.entries.map fun a => ⟨some a.accountId, a.mana⟩) (some a)
      = Allotment.gain t.allotments.entries a := by
    simp only [Claim.asked, List.filter_map, List.map_map, Function.comp_def, Option.some.injEq]
    rfl
  rw [claims, Claim.asked_append, hallot, Claim.asked, List.filter_map, List.map_map]
  rfl

theorem drawn_claims (p : Protocol) (t : Transaction) (b : Balance) :
    b.drawn (p.claims t) = p.needed t b := by
  simp only [Balance.drawn, asked_claims_none, asked_claims_some, needed]

theorem sum_claims (p : Protocol) (t : Transaction) :
    ((p.claims t).map fun c => c.mana.toNat).sum = t.assigned := by
  simp only [claims, List.map_append, List.map_map, List.sum_append]
  rfl

/-- Transactions with the same outputs and allotments in other orders have the same claims. -/
theorem perm_claims (hslot : t'.creationSlot = t.creationSlot) (houtputs : t'.outputs.Perm t.outputs)
    (hallotments : t'.allotments.entries.Perm t.allotments.entries) :
    (p.claims t').Perm (p.claims t) := by
  rw [claims, claims, hslot]
  exact (houtputs.map _).append (hallotments.map _)

/-! ## The balance left -/

/-- Outputs and allotments are taken as claims on the balance of the inputs. -/
theorem balanceAfter_eq_ok_iff {target : SlotIndex} {inputs : List Consumed} {rewards : Mana}
    {b : Balance} :
    p.balanceAfter target inputs rewards t = .ok b ↔
      ∃ b₀, p.balanceOf target inputs rewards = .ok b₀ ∧ b₀.Leaves (p.claims t) b := by
  have hrun : ∀ b₀ : Balance,
      (t.outputs.foldlM (p.takeOutput t.creationSlot) b₀ >>= fun mid =>
        t.allotments.entries.foldlM (fun b a => b.takeBound a.accountId a.mana) mid)
      = b₀.takeAll (p.claims t) := by
    intro b₀
    simp only [Balance.takeAll, claims, List.foldlM_append, List.foldlM_map]
    rfl
  rw [balanceAfter, bind_eq_ok_iff]
  refine exists_congr fun b₀ => and_congr_right fun _ => ?_
  rw [checked_eq_ok_iff, hrun, Balance.takeAll_eq_ok_iff]

/-- How the balance left follows from that of the inputs. -/
structure Settles (p : Protocol) (t : Transaction) (b₀ b : Balance) : Prop where
  /-- The unbound mana loses what the transaction needs of it. -/
  unbound : b.unbound.toNat + p.needed t b₀ = b₀.unbound.toNat
  /-- Every account keeps what is bound to it less what is claimed of it. -/
  boundTo : ∀ a, (b.boundTo a).toNat = (b₀.boundTo a).toNat - p.claimedOf t a
  total : b.total = b₀.total
  potential : b.potential = b₀.potential
  stored : b.stored = b₀.stored
  unboundPotential : b.unboundPotential = b₀.unboundPotential
  unboundStored : b.unboundStored = b₀.unboundStored
  rewards : b.rewards = b₀.rewards
  /-- No mana is lost. -/
  worth : b.worth + t.assigned = b₀.total.toNat + b₀.rewards.toNat

theorem settles_of_leaves {target : SlotIndex} {inputs : List Consumed} {rewards : Mana}
    {b₀ b : Balance} (hinputs : p.balanceOf target inputs rewards = .ok b₀)
    (h : b₀.Leaves (p.claims t) b) : p.Settles t b₀ b := by
  have hworth := h.worth
  rw [sum_claims, worth_balanceOf hinputs] at hworth
  have hunbound := h.unbound
  rw [drawn_claims] at hunbound
  have hrest := h.rest
  refine ⟨hunbound, ?_, ?_, ?_, ?_, ?_, ?_, ?_, hworth⟩
  · intro a
    rw [h.boundTo a, asked_claims_some]
  all_goals rw [hrest]

/-- What is left settles the transaction. -/
theorem settles_balanceAfter {target : SlotIndex} {inputs : List Consumed} {rewards : Mana}
    {b₀ b : Balance} (hinputs : p.balanceOf target inputs rewards = .ok b₀)
    (h : p.balanceAfter target inputs rewards t = .ok b) : p.Settles t b₀ b := by
  obtain ⟨found, hfound, hleaves⟩ := balanceAfter_eq_ok_iff.mp h
  obtain rfl : b₀ = found := Except.ok.inj (hinputs.symm.trans hfound)
  exact settles_of_leaves hinputs hleaves

/-- A transaction can be settled exactly if the unbound mana covers what it needs. -/
theorem exists_balanceAfter_iff {target : SlotIndex} {inputs : List Consumed} {rewards : Mana} :
    (∃ b, p.balanceAfter target inputs rewards t = .ok b) ↔
      ∃ b₀, p.balanceOf target inputs rewards = .ok b₀ ∧ p.needed t b₀ ≤ b₀.unbound.toNat := by
  constructor
  · rintro ⟨b, hb⟩
    obtain ⟨b₀, hinputs, hleaves⟩ := balanceAfter_eq_ok_iff.mp hb
    have hunbound := (settles_of_leaves hinputs hleaves).unbound
    exact ⟨b₀, hinputs, hunbound ▸ Nat.le_add_left _ _⟩
  · rintro ⟨b₀, hinputs, hneeded⟩
    rw [← drawn_claims] at hneeded
    obtain ⟨b, hb⟩ := Balance.exists_takeAll hneeded
    exact ⟨b, balanceAfter_eq_ok_iff.mpr ⟨b₀, hinputs, Balance.takeAll_eq_ok_iff.mp hb⟩⟩

/-- **Outputs and allotments may come in any order.** -/
theorem balanceAfter_perm {target : SlotIndex} {inputs : List Consumed} {rewards : Mana} {b : Balance}
    (h : (p.claims t').Perm (p.claims t)) :
    p.balanceAfter target inputs rewards t' = .ok b ↔
      p.balanceAfter target inputs rewards t = .ok b := by
  rw [balanceAfter_eq_ok_iff, balanceAfter_eq_ok_iff]
  refine exists_congr fun b₀ => and_congr_right fun _ => ?_
  exact ⟨fun hleaves => hleaves.perm h, fun hleaves => hleaves.perm h.symm⟩

/-- **The closed form of the balance left.**  There is one exactly if the inputs have a balance whose
unbound mana covers what the transaction needs of it; it follows from the totals claimed, and so not
from the order of outputs and allotments. -/
theorem balanceAfter_closed_form (p : Protocol) (target : SlotIndex) (inputs : List Consumed)
    (rewards : Mana) (t : Transaction) :
    ((∃ b, p.balanceAfter target inputs rewards t = .ok b) ↔
      ∃ b₀, p.balanceOf target inputs rewards = .ok b₀ ∧ p.needed t b₀ ≤ b₀.unbound.toNat) ∧
    (∀ b₀ b, p.balanceOf target inputs rewards = .ok b₀ →
      p.balanceAfter target inputs rewards t = .ok b → p.Settles t b₀ b) ∧
    ∀ t', t'.creationSlot = t.creationSlot → t'.outputs.Perm t.outputs →
      t'.allotments.entries.Perm t.allotments.entries → ∀ b,
        p.balanceAfter target inputs rewards t' = .ok b ↔
          p.balanceAfter target inputs rewards t = .ok b := by
  refine ⟨exists_balanceAfter_iff, fun b₀ b => settles_balanceAfter, ?_⟩
  intro t' hslot houtputs hallotments b
  exact balanceAfter_perm (perm_claims hslot houtputs hallotments)

end Protocol

/-- A transaction that stores 450 and allots the account 50 more than is bound to it. -/
def sampleTransaction : Transaction where
  allotments := ⟨[⟨sampleAccount, 150⟩], by simp⟩
  outputs := [.basic 2000000 400 sampleOwner, .basic 1000000 50 sampleOwner]

/-- A transaction that leaves the account an output of 30 which stays locked long enough to be bound, and one
of 5 which is unlocked a slot too early; it stores 450 and allots the account 50. -/
def lockingTransaction : Transaction where
  allotments := ⟨[⟨sampleAccount, 50⟩], by simp⟩
  outputs :=
    [.basic 2000000 400 sampleOwner, .basic 1000000 50 sampleOwner,
      ⟨1000000, .basic 30, { address := some (.account sampleAccount), timelock := some 20 }⟩,
      ⟨1000000, .basic 5, { address := some (.account sampleAccount), timelock := some 19 }⟩]

/-- Of two transactions one goes beyond what is bound to the account, and one leaves 20 of it. -/
theorem balanceAfter_closed_form_of_shortfall :
    ∃ b₀ b b', Protocol.standard.balanceOf 0 sampleDraft.consumed 0 = .ok b₀ ∧
      Protocol.standard.balanceAfter 0 sampleDraft.consumed 0 sampleTransaction = .ok b ∧
      Protocol.standard.balanceAfter 0 sampleDraft.consumed 0
        { sampleTransaction with outputs := sampleTransaction.outputs.reverse } = .ok b ∧
      b.unbound = 500 ∧ Protocol.standard.Settles sampleTransaction b₀ b ∧
      Protocol.standard.balanceAfter 0 sampleDraft.consumed 0 lockingTransaction = .ok b' ∧
      b'.unbound = 545 ∧ b'.boundTo sampleAccount = 20 ∧
      Protocol.standard.Settles lockingTransaction b₀ b' := by
  have hleft : ((Protocol.standard.balanceAfter 0 sampleDraft.consumed 0 sampleTransaction).map
      Balance.unbound) = .ok 500 := by decide +kernel
  obtain ⟨b, hb, hunbound⟩ := map_eq_ok_iff.mp hleft
  obtain ⟨hexists, hsettles, horder⟩ :=
    Protocol.balanceAfter_closed_form Protocol.standard 0 sampleDraft.consumed 0 sampleTransaction
  obtain ⟨b₀, hb₀, -⟩ := hexists.mp ⟨b, hb⟩
  have hreverse := horder { sampleTransaction with outputs := sampleTransaction.outputs.reverse }
    rfl (List.reverse_perm _) (List.Perm.refl _) b
  have hlocking : ((Protocol.standard.balanceAfter 0 sampleDraft.consumed 0 lockingTransaction).map
      fun b => (b.unbound, b.boundTo sampleAccount)) = .ok (545, 20) := by decide +kernel
  obtain ⟨b', hb', hparts⟩ := map_eq_ok_iff.mp hlocking
  obtain ⟨hunbound', hbound'⟩ := Prod.mk.inj hparts
  obtain ⟨-, hsettles', -⟩ :=
    Protocol.balanceAfter_closed_form Protocol.standard 0 sampleDraft.consumed 0 lockingTransaction
  exact ⟨b₀, b, b', hb₀, hb, hreverse.mpr hb, hunbound, hsettles b₀ b hb₀ hb, hb', hunbound', hbound',
    hsettles' b₀ b' hb₀ hb'⟩

end ManaWallet
