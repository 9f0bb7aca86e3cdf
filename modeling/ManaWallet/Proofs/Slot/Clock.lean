import ManaWallet.Slot.Clock
import Mathlib.Tactic.Ring

/-!
# Proofs/Slot/Clock — epochs as division with remainder

    slots since genesis = epochOf · 2 ^ x + slotsSinceEpochStart
    slotsBeforeNextEpoch + slotsSinceEpochStart = 2 ^ x

The bounds of an epoch may wrap; the distances of a slot to them do not.  So the slots from one to another
are those before the first boundary, whole epochs, and those behind the last (`toNat_eq_add_slots`).
-/

namespace ManaWallet

namespace SlotClock

/-- A clock on which no epoch is longer than the slots there are. -/
def Bounded (c : SlotClock) : Prop := c.slotsPerEpochExponent.toNat < 32

instance (c : SlotClock) : Decidable c.Bounded := Nat.decLt _ _

/-- The number of slots in an epoch. -/
def epochLength (c : SlotClock) : ℕ := 2 ^ c.slotsPerEpochExponent.toNat

/-- The number of slots since the genesis slot. -/
def age (c : SlotClock) (slot : SlotIndex) : ℕ := slot.toNat - c.genesisSlot.toNat

variable {c : SlotClock} {slot : SlotIndex}

theorem epochLength_pos (c : SlotClock) : 0 < c.epochLength := Nat.two_pow_pos _

theorem Bounded.epochLength_le (hc : c.Bounded) : c.epochLength ≤ 2 ^ 31 :=
  Nat.pow_le_pow_right Nat.two_pos (Nat.le_of_lt_succ hc)

/-- A shift by the exponent is one by less than a word. -/
theorem Bounded.shift_eq (hc : c.Bounded) :
    c.slotsPerEpochExponent.toUInt32.toNat % 32 = c.slotsPerEpochExponent.toNat := by
  rw [UInt8.toNat_toUInt32]
  exact Nat.mod_eq_of_lt hc

/-- **The epoch of a slot** is the number of whole epochs since the genesis slot. -/
theorem toNat_epochOf (hc : c.Bounded) (hslot : c.genesisSlot ≤ slot) :
    (c.epochOf slot).toNat = c.age slot / c.epochLength := by
  rw [epochOf, if_neg (UInt32.not_lt.mpr hslot), UInt32.toNat_shiftRight, hc.shift_eq,
    UInt32.toNat_sub_of_le _ _ hslot, Nat.shiftRight_eq_div_pow]
  rfl

/-- **Later slots have later epochs**, slots before the genesis slot included. -/
theorem epochOf_mono (hc : c.Bounded) {slot later : SlotIndex} (h : slot ≤ later) :
    c.epochOf slot ≤ c.epochOf later := by
  rcases Nat.lt_or_ge slot.toNat c.genesisSlot.toNat with hbefore | hsince
  · rw [epochOf, if_pos (UInt32.lt_iff_toNat_lt.mpr hbefore), UInt32.le_iff_toNat_le]
    exact Nat.zero_le _
  · have hslot := UInt32.le_iff_toNat_le.mpr hsince
    rw [UInt32.le_iff_toNat_le, toNat_epochOf hc hslot, toNat_epochOf hc (UInt32.le_trans hslot h)]
    exact Nat.div_le_div_right (Nat.sub_le_sub_right (UInt32.le_iff_toNat_le.mp h) _)

/-- Slots of one epoch are less than an epoch apart. -/
theorem toNat_sub_lt_epochLength {later : SlotIndex} (hc : c.Bounded) (hslot : c.genesisSlot ≤ slot)
    (hle : slot ≤ later) (hsame : c.epochOf later = c.epochOf slot) :
    (later - slot).toNat < c.epochLength := by
  have hfirst := Nat.div_add_mod' (c.age slot) c.epochLength
  have hlast := Nat.div_add_mod' (c.age later) c.epochLength
  have hrest := Nat.mod_lt (c.age later) c.epochLength_pos
  have hepoch := UInt32.toNat_inj.mpr hsame
  rw [toNat_epochOf hc hslot, toNat_epochOf hc (UInt32.le_trans hslot hle)] at hepoch
  rw [← hepoch] at hfirst
  rw [UInt32.toNat_sub_of_le _ _ hle]
  rw [UInt32.le_iff_toNat_le] at hslot
  unfold age at hfirst hlast hrest
  omega

/-- The first slot of an epoch, as far as it fits. -/
theorem toNat_epochStart (hc : c.Bounded) (epoch : EpochIndex) :
    (c.epochStart epoch).toNat
      = (c.genesisSlot.toNat + epoch.toNat * c.epochLength) % 2 ^ 32 := by
  rw [epochStart, UInt32.toNat_add, UInt32.toNat_shiftLeft, hc.shift_eq, Nat.shiftLeft_eq,
    Nat.add_mod_mod]
  rfl

/-- The first slot of the epoch after one, as far as it fits; the number of that epoch may wrap. -/
theorem toNat_epochStart_succ (hc : c.Bounded) (epoch : EpochIndex) :
    (c.epochStart (epoch + 1)).toNat
      = (c.genesisSlot.toNat + (epoch.toNat * c.epochLength + c.epochLength)) % 2 ^ 32 := by
  have hnext : (epoch + 1).toNat * c.epochLength % 2 ^ 32
      = (epoch.toNat * c.epochLength + c.epochLength) % 2 ^ 32 := by
    rw [UInt32.toNat_add, UInt32.toNat_one, Nat.mod_mul_mod, Nat.add_mul, Nat.one_mul]
  rw [toNat_epochStart hc, Nat.add_mod, hnext, ← Nat.add_mod]

/-! ## The first slot of an epoch -/

/-- The first slot of the epoch that a slot belongs to. -/
def opening (c : SlotClock) (slot : SlotIndex) : SlotIndex := c.epochStart (c.epochOf slot)

/-- A slot's own epoch starts within the slots there are. -/
theorem toNat_opening (hc : c.Bounded) (hslot : c.genesisSlot ≤ slot) :
    (c.opening slot).toNat = c.genesisSlot.toNat + c.age slot / c.epochLength * c.epochLength := by
  have hword := slot.toNat_lt
  have hgenesis := UInt32.le_iff_toNat_le.mp hslot
  have hpart := Nat.div_mul_le_self (c.age slot) c.epochLength
  have hage : c.age slot = slot.toNat - c.genesisSlot.toNat := rfl
  rw [opening, toNat_epochStart hc, toNat_epochOf hc hslot]
  exact Nat.mod_eq_of_lt (by omega)

theorem opening_le (hc : c.Bounded) (hslot : c.genesisSlot ≤ slot) : c.opening slot ≤ slot := by
  have hgenesis := UInt32.le_iff_toNat_le.mp hslot
  have hpart := Nat.div_mul_le_self (c.age slot) c.epochLength
  have hage : c.age slot = slot.toNat - c.genesisSlot.toNat := rfl
  rw [UInt32.le_iff_toNat_le, toNat_opening hc hslot]
  omega

theorem genesisSlot_le_opening (hc : c.Bounded) (hslot : c.genesisSlot ≤ slot) :
    c.genesisSlot ≤ c.opening slot := by
  rw [UInt32.le_iff_toNat_le, toNat_opening hc hslot]
  exact Nat.le_add_right _ _

/-- The first slot of an epoch belongs to it. -/
theorem epochOf_opening (hc : c.Bounded) (hslot : c.genesisSlot ≤ slot) :
    c.epochOf (c.opening slot) = c.epochOf slot := by
  rw [← UInt32.toNat_inj, toNat_epochOf hc (genesisSlot_le_opening hc hslot), toNat_epochOf hc hslot,
    age, toNat_opening hc hslot, Nat.add_sub_cancel_left, Nat.mul_div_cancel _ c.epochLength_pos]

/-- Only the first epoch has slots before the genesis slot. -/
theorem genesisSlot_le_of_epochOf_pos (h : 0 < (c.epochOf slot).toNat) : c.genesisSlot ≤ slot := by
  refine UInt32.not_lt.mp fun hbefore => ?_
  rw [epochOf, if_pos hbefore] at h
  exact absurd h (Nat.lt_irrefl 0)

/-! ## Distances to the bounds -/

/-- **Slots since the start of the epoch** are the rest. -/
theorem toNat_slotsSinceEpochStart (hc : c.Bounded) (hslot : c.genesisSlot ≤ slot) :
    (c.slotsSinceEpochStart slot).toNat = c.age slot % c.epochLength := by
  have hgenesis := UInt32.le_iff_toNat_le.mp hslot
  have hword := slot.toNat_lt
  have hsplit := Nat.div_add_mod' (c.age slot) c.epochLength
  rw [slotsSinceEpochStart, if_neg (UInt32.not_lt.mpr hslot), UInt32.toNat_sub, toNat_epochStart hc,
    toNat_epochOf hc hslot]
  generalize c.age slot / c.epochLength * c.epochLength = start at hsplit ⊢
  unfold age at hsplit ⊢
  omega

/-- **Slots before the next epoch** are what the rest leaves of an epoch, also where the next epoch
starts past the last slot. -/
theorem toNat_slotsBeforeNextEpoch (hc : c.Bounded) (hslot : c.genesisSlot ≤ slot) :
    (c.slotsBeforeNextEpoch slot).toNat = c.epochLength - c.age slot % c.epochLength := by
  have hgenesis := UInt32.le_iff_toNat_le.mp hslot
  have hword := slot.toNat_lt
  have hlength := hc.epochLength_le
  have hrest := Nat.mod_lt (c.age slot) c.epochLength_pos
  have hsplit := Nat.div_add_mod' (c.age slot) c.epochLength
  rw [slotsBeforeNextEpoch, if_neg (UInt32.not_lt.mpr hslot), UInt32.toNat_sub,
    toNat_epochStart_succ hc, toNat_epochOf hc hslot]
  generalize c.age slot / c.epochLength * c.epochLength = start at hsplit ⊢
  unfold age at hsplit hrest ⊢
  omega

/-- **No slot is lost at a boundary**: from a slot to one of a later epoch there are the slots before the
next epoch, those of the whole epochs between, and those since the start of the last. -/
theorem toNat_eq_add_slots {creation target : SlotIndex} {between : ℕ} (hc : c.Bounded)
    (hcreation : c.genesisSlot ≤ creation) (htarget : c.genesisSlot ≤ target)
    (hepochs : (c.epochOf target).toNat = (c.epochOf creation).toNat + (between + 1)) :
    target.toNat = creation.toNat + ((c.slotsBeforeNextEpoch creation).toNat
      + between * c.epochLength + (c.slotsSinceEpochStart target).toNat) := by
  have hrest := Nat.mod_lt (c.age creation) c.epochLength_pos
  have hfirst := Nat.div_add_mod' (c.age creation) c.epochLength
  have hlast := Nat.div_add_mod' (c.age target) c.epochLength
  rw [toNat_epochOf hc htarget, toNat_epochOf hc hcreation] at hepochs
  rw [hepochs, Nat.add_mul, Nat.add_mul, Nat.one_mul] at hlast
  rw [toNat_slotsBeforeNextEpoch hc hcreation, toNat_slotsSinceEpochStart hc htarget]
  rw [UInt32.le_iff_toNat_le] at hcreation htarget
  generalize c.age creation / c.epochLength * c.epochLength = start at hfirst hlast
  have hcreationAge : c.age creation = creation.toNat - c.genesisSlot.toNat := rfl
  have htargetAge : c.age target = target.toNat - c.genesisSlot.toNat := rfl
  omega

end SlotClock

end ManaWallet
