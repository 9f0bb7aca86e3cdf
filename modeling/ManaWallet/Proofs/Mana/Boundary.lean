import ManaWallet.Proofs.Mana.Formula
import ManaWallet.Proofs.Standard

/-!
# Proofs/Mana/Boundary — slots on both sides of an epoch's first slot

    creation ──slots before──▸ first slot of the target's epoch ──slots behind──▸ target

The distances of creation and target to the bounds of their epochs are their distances to one slot, the
first of the target's epoch.  So the slots that count before it, decayed once, and those behind it are all
the slots there are from creation to target.  Slots before the genesis slot have no distance to a bound:
from there nothing counts up to the boundary (`potential_across_boundary`).
-/

namespace ManaWallet

namespace SlotClock

variable {c : SlotClock} {creation target : SlotIndex}

/-- That a slot is the boundary on the way from one slot to another: the first of the later one's epoch. -/
structure Crosses (c : SlotClock) (creation boundary target : SlotIndex) : Prop where
  creation_lt : creation < boundary
  le_target : boundary ≤ target
  epochOf_eq : c.epochOf boundary = c.epochOf target
  first : ∀ slot, c.epochOf slot = c.epochOf target → boundary ≤ slot

/-- Where the target's epoch is later, its first slot comes behind all slots of earlier epochs. -/
theorem lt_opening (hc : c.Bounded) (htarget : c.genesisSlot ≤ target)
    (hlater : (c.epochOf creation).toNat < (c.epochOf target).toNat) : creation < c.opening target := by
  refine UInt32.not_le.mp fun hle => ?_
  have hmono := UInt32.le_iff_toNat_le.mp (epochOf_mono hc hle)
  rw [epochOf_opening hc htarget] at hmono
  omega

/-- **The way into a later epoch crosses its first slot.** -/
theorem crosses_opening (hc : c.Bounded)
    (hlater : (c.epochOf creation).toNat < (c.epochOf target).toNat) :
    c.Crosses creation (c.opening target) target where
  creation_lt := lt_opening hc (genesisSlot_le_of_epochOf_pos (by omega)) hlater
  le_target := opening_le hc (genesisSlot_le_of_epochOf_pos (by omega))
  epochOf_eq := epochOf_opening hc (genesisSlot_le_of_epochOf_pos (by omega))
  first slot hsame := by
    have hslot : c.genesisSlot ≤ slot := genesisSlot_le_of_epochOf_pos (by rw [hsame]; omega)
    rw [opening, ← hsame]
    exact opening_le hc hslot

/-- What lies behind the boundary is counted from it. -/
theorem slotsSinceEpochStart_eq (htarget : c.genesisSlot ≤ target) :
    c.slotsSinceEpochStart target = target - c.opening target :=
  if_neg (UInt32.not_lt.mpr htarget)

/-- What lies before the boundary is counted up to it, from the genesis slot on. -/
theorem slotsBeforeNextEpoch_eq (hcreation : c.genesisSlot ≤ creation)
    (hnext : (c.epochOf target).toNat = (c.epochOf creation).toNat + 1) :
    c.slotsBeforeNextEpoch creation = c.opening target - creation := by
  have hepoch : c.epochOf creation + 1 = c.epochOf target := by
    have hword := (c.epochOf target).toNat_lt
    rw [← UInt32.toNat_inj, UInt32.toNat_add, UInt32.toNat_one, hnext]
    exact Nat.mod_eq_of_lt (hnext ▸ hword)
  rw [slotsBeforeNextEpoch, if_neg (UInt32.not_lt.mpr hcreation), hepoch, opening]

/-- **A boundary parts the slots on the way**, and none is counted twice. -/
theorem Crosses.add_slots {boundary : SlotIndex} (h : c.Crosses creation boundary target) :
    creation.toNat + ((boundary - creation).toNat + (target - boundary).toNat) = target.toNat := by
  have hbefore := UInt32.lt_iff_toNat_lt.mp h.creation_lt
  have hbehind := UInt32.le_iff_toNat_le.mp h.le_target
  rw [UInt32.toNat_sub_of_le _ _ (UInt32.le_of_lt h.creation_lt), UInt32.toNat_sub_of_le _ _ h.le_target]
  omega

end SlotClock

namespace ManaSchedule

variable {s : ManaSchedule} {amount : BaseToken} {creation target : SlotIndex}

/-- From one epoch to the next, potential mana is that of the next epoch. -/
theorem potential_of_nextEpoch
    (hnext : (s.clock.epochOf target).toNat = (s.clock.epochOf creation).toNat + 1) :
    s.potential amount creation target = s.potentialOfNextEpoch amount creation target := by
  have hle : s.clock.epochOf creation ≤ s.clock.epochOf target := by
    rw [UInt32.le_iff_toNat_le]
    omega
  have hother : s.clock.epochOf target ≠ s.clock.epochOf creation := by
    rw [ne_eq, ← UInt32.toNat_inj]
    omega
  have hone : s.clock.epochOf target - s.clock.epochOf creation = 1 := by
    rw [← UInt32.toNat_inj, UInt32.toNat_sub_of_le _ _ hle, UInt32.toNat_one]
    omega
  unfold potential
  dsimp only
  rw [if_neg (UInt32.not_lt.mpr hle), if_neg hother, if_pos hone]

/-- Nothing is generated in no slots, and of nothing there is nothing to decay. -/
theorem decay_generate_zero (s : ManaSchedule) (amount : BaseToken) (epochs : EpochIndex) :
    s.decay (s.generate amount 0) epochs = 0 := by
  have hnothing : s.generate amount 0 = 0 := if_pos (Or.inl rfl)
  rw [hnothing, decay]
  simp only [true_or, if_true]

end ManaSchedule

namespace Protocol

/-- **No slot is lost at a boundary, from the genesis slot on**: over one boundary potential mana is the
checked sum of what the slots before it yield, decayed once, and what those behind it yield, and these are
all slots on the way.  Where the tokens were created before the genesis slot, only those behind it count. -/
theorem potential_across_boundary (p : Protocol) (amount : BaseToken) {creation target : SlotIndex}
    (hnext : (p.clock.epochOf target).toNat = (p.clock.epochOf creation).toNat + 1) :
    p.clock.Crosses creation (p.clock.opening target) target ∧
      (p.clock.genesisSlot ≤ creation →
        p.schedule.potential amount creation target
            = ManaSchedule.checked (checkedAdd
              (p.schedule.decay (p.schedule.generate amount (p.clock.opening target - creation)) 1)
              (p.schedule.generate amount (target - p.clock.opening target))) ∧
          creation.toNat + ((p.clock.opening target - creation).toNat
            + (target - p.clock.opening target).toNat) = target.toNat) ∧
      (creation < p.clock.genesisSlot →
        p.schedule.potential amount creation target
          = .ok (p.schedule.generate amount (target - p.clock.opening target))) := by
  have hcross : p.clock.Crosses creation (p.clock.opening target) target :=
    SlotClock.crosses_opening p.bounded_clock (hnext ▸ Nat.lt_succ_self _)
  have hbehind : p.clock.slotsSinceEpochStart target = target - p.clock.opening target :=
    SlotClock.slotsSinceEpochStart_eq (SlotClock.genesisSlot_le_of_epochOf_pos (by omega))
  have hpotential : p.schedule.potential amount creation target
      = ManaSchedule.checked (checkedAdd
        (p.schedule.decay (p.schedule.generate amount (p.clock.slotsBeforeNextEpoch creation)) 1)
        (p.schedule.generate amount (target - p.clock.opening target))) := by
    rw [ManaSchedule.potential_of_nextEpoch hnext, ← hbehind]
    rfl
  refine ⟨hcross, fun hcreation => ⟨?_, hcross.add_slots⟩, fun hbefore => ?_⟩
  · rw [hpotential, SlotClock.slotsBeforeNextEpoch_eq hcreation hnext]
  · have hnone : p.clock.slotsBeforeNextEpoch creation = 0 := if_pos hbefore
    have hsum : ∀ v : Mana, checkedAdd 0 v = .ok v := fun v =>
      checkedAdd_eq_ok_iff.mpr (Nat.zero_add v.toNat).symm
    rw [hpotential, hnone, ManaSchedule.decay_generate_zero, hsum]
    rfl

end Protocol

/-! ## A network with a genesis slot -/

/-- The network of the standard constants that starts at slot 100. -/
def Protocol.late : Protocol where
  parameters := { genesisSlot := 100 }
  valid := ProtocolParameters.validate_of_untabled (by decide) (by decide +kernel)
  exponent_le := UInt8.le_refl _

/-- From the genesis slot on, and from the slot before it. -/
theorem potential_across_boundary_sample :
    Protocol.late.schedule.potential 131072 100 8300 = .ok 8192 ∧
      Protocol.late.schedule.potential 131072 99 8300 = .ok 8 := by
  have hnext : (Protocol.late.clock.epochOf 8300).toNat = (Protocol.late.clock.epochOf 100).toNat + 1 := by
    decide +kernel
  have hnext' : (Protocol.late.clock.epochOf 8300).toNat = (Protocol.late.clock.epochOf 99).toNat + 1 := by
    decide +kernel
  obtain ⟨-, hsince, -⟩ := Protocol.late.potential_across_boundary 131072 hnext
  obtain ⟨-, -, hbefore⟩ := Protocol.late.potential_across_boundary 131072 hnext'
  constructor
  · rw [(hsince (by decide)).1]
    decide +kernel
  · rw [hbefore (by decide)]
    decide +kernel

/-- **Slots that are lost**: of the tokens that there were from slot 0 on, all that they have generated up
to the first boundary is gone at it, and not only what decays. -/
theorem early_slots_are_lost :
    (Protocol.late.clock.epochOf 8292).toNat = (Protocol.late.clock.epochOf 0).toNat + 1 ∧
      Protocol.late.clock.opening 8292 = 8292 ∧
      Protocol.late.schedule.potential 131072 0 8291 = .ok 8291 ∧
      Protocol.late.schedule.potential 131072 0 8292 = .ok 0 ∧
      ManaSchedule.checked (checkedAdd
        (Protocol.late.schedule.decay (Protocol.late.schedule.generate 131072
          (Protocol.late.clock.opening 8292 - 0)) 1)
        (Protocol.late.schedule.generate 131072 (8292 - Protocol.late.clock.opening 8292))) = .ok 8284 :=
  ⟨by decide +kernel, by decide +kernel, by decide +kernel, by decide +kernel, by decide +kernel⟩

end ManaWallet
