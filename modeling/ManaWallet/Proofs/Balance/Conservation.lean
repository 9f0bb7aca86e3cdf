import ManaWallet.Proofs.Balance.Inputs
import ManaWallet.Proofs.Mana.Failure

/-!
# Proofs/Balance/Conservation — no mana is lost on the way from inputs to their balance

    inputs, in any order ──▸ balance ──┬─ unbound: potential, stored, rewards
                                       └─ bound to the accounts of the inputs

What a balance holds of its inputs is said by totals, so its parts can be compared one by one, and the
order of the inputs leaves no trace (`balanceOf_conserves`).
-/

namespace ManaWallet

namespace Protocol

variable {p : Protocol} {target : SlotIndex} {b : Balance} {input : Consumed} {y : Yield}

/-- An input that brings something was not created after the target. -/
theorem creationSlot_le (hy : p.yieldOf target input = .ok y) : input.1.creationSlot ≤ target := by
  simp only [yieldOf, bind_eq_ok_iff] at hy
  obtain ⟨potential, hpotential, -⟩ := hy
  by_contra hlater
  have hfails : ∃ e, p.schedule.potential input.2.amount input.1.creationSlot target = .error e := by
    obtain ⟨-, hfails⟩ | ⟨-, hfails⟩ :=
      ManaSchedule.potential_of_lt p.bounded_clock (UInt32.not_le.mp hlater)
    · exact ⟨_, hfails⟩
    · exact ⟨_, hfails⟩
  exact exists_error_iff.mp hfails ⟨potential, hpotential⟩

/-- Inputs that bring something were not created after the target. -/
theorem Brings.created {inputs : List Consumed} {yields : List Yield}
    (h : p.Brings target inputs yields) : ∀ input ∈ inputs, input.1.creationSlot ≤ target := by
  induction h with
  | nil => exact fun _ hnone => absurd hnone List.not_mem_nil
  | cons hy _ ih => exact List.forall_mem_cons.mpr ⟨creationSlot_le hy, ih⟩

/-- A balance that accounts for all mana of inputs and rewards. -/
structure Conserves (target : SlotIndex) (inputs : List Consumed) (rewards : Mana) (b : Balance) :
    Prop where
  rewards : b.rewards = rewards
  total : b.total.toNat = b.potential.toNat + b.stored.toNat
  unbound : b.unbound.toNat
    = b.unboundPotential.toNat + b.unboundStored.toNat + b.rewards.toNat
  /-- Nothing is lost and nothing is counted twice between what is unbound and what is bound. -/
  worth : b.unbound.toNat + ∑ a, (b.boundTo a).toNat = b.total.toNat + b.rewards.toNat
  /-- Mana is bound to the accounts of the inputs and to no other.  An account whose name is all zeros goes
  by the digest of the name of the output that opens it. -/
  accounts : ∀ a, a ∈ b.bound ↔ ∃ input ∈ inputs, ∃ account, input.2.accountId? = some account ∧
    (if account = ⟨.zero 32⟩ then ⟨blake3 (encode input.1)⟩ else account) = a
  /-- No input was created after the target. -/
  created : ∀ input ∈ inputs, input.1.creationSlot ≤ target

/-- The parts of a balance account for all of it. -/
theorem conserves_balanceOf {inputs : List Consumed} {rewards : Mana}
    (h : p.balanceOf target inputs rewards = .ok b) : Conserves target inputs rewards b := by
  obtain ⟨yields, hyields, hholds⟩ := holds_balanceOf h
  refine ⟨hholds.rewards, hholds.total, ?_, worth_balanceOf h, fun a => ?_, ?_⟩
  · rw [hholds.unbound, Yield.brought_unbound, ← hholds.unboundPotential, ← hholds.unboundStored,
      hholds.rewards]
  · simp only [hholds.mem a, hyields.map_account, List.mem_map, Option.map_eq_some_iff,
      ChainName.orOfOutputId_eq]
  · exact hyields.created

/-- **The balance of inputs conserves their mana and ignores their order.**  There is one exactly if each
input brings something and the sums fit; its parts add up to its totals, and inputs in another order have
the same balance, or none either. -/
theorem balanceOf_conserves (p : Protocol) (target : SlotIndex) (inputs : List Consumed)
    (rewards : Mana) :
    ((∃ b, p.balanceOf target inputs rewards = .ok b) ↔
      ∃ yields, p.Brings target inputs yields ∧ Fits yields rewards) ∧
    (∀ b, p.balanceOf target inputs rewards = .ok b → Conserves target inputs rewards b) ∧
    ∀ inputs', inputs'.Perm inputs →
      (∀ b, p.balanceOf target inputs' rewards = .ok b ↔ p.balanceOf target inputs rewards = .ok b) ∧
      ((∃ e, p.balanceOf target inputs' rewards = .error e) ↔
        ∃ e, p.balanceOf target inputs rewards = .error e) := by
  refine ⟨exists_balanceOf_iff, fun b => conserves_balanceOf, fun inputs' hperm => ?_⟩
  have hsame : ∀ b, p.balanceOf target inputs' rewards = .ok b ↔
      p.balanceOf target inputs rewards = .ok b := fun b => balanceOf_perm hperm
  refine ⟨hsame, ?_⟩
  rw [exists_error_iff, exists_error_iff, exists_congr hsame]

end Protocol

/-- The wallet, and an account with a mana of 20 that its output opens. -/
def sampleOpening : List Consumed :=
  sampleDraft.consumed ++ [(⟨⟨.zero 32, 0⟩, 3⟩, .account 1000000 20 .empty sampleOwner)]

/-- The account that the last output of the wallet opens. -/
def openedAccount : AccountId := ⟨blake3 (encode (OutputId.mk ⟨.zero 32, 0⟩ 3))⟩

/-- Rewards of 7 join the 50 and the 950 that no account holds; the account keeps its 100, and the new one
its 20 under the name that the output gives it. -/
theorem balanceOf_conserves_sample :
    ∃ b, Protocol.standard.balanceOf 0 sampleOpening 7 = .ok b ∧
      Protocol.standard.balanceOf 0 sampleOpening.reverse 7 = .ok b ∧
      b.total = 1120 ∧ b.unbound = 1007 ∧ b.boundTo sampleAccount = 100 ∧
      b.boundTo openedAccount = 20 ∧ b.boundTo .empty = 0 ∧
      Protocol.Conserves 0 sampleOpening 7 b := by
  obtain ⟨-, hconserves, horder⟩ :=
    Protocol.balanceOf_conserves Protocol.standard 0 sampleOpening 7
  have hsums : (Protocol.standard.balanceOf 0 sampleOpening 7).map
      (fun b => (b.total, b.unbound, b.boundTo sampleAccount, b.boundTo openedAccount,
        b.boundTo .empty)) = .ok (1120, 1007, 100, 20, 0) := by
    decide +kernel
  obtain ⟨b, hb, hsum⟩ := map_eq_ok_iff.mp hsums
  obtain ⟨hsame, -⟩ := horder sampleOpening.reverse (List.reverse_perm _)
  simp only [Prod.mk.injEq] at hsum
  obtain ⟨htotal, hunbound, hbound, hopened, hempty⟩ := hsum
  exact ⟨b, hb, (hsame b).mpr hb, htotal, hunbound, hbound, hopened, hempty, hconserves b hb⟩

end ManaWallet
