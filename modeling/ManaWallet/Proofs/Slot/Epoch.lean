import ManaWallet.Proofs.Slot.Clock

/-!
# Proofs/Slot/Epoch — epochs partition the slots

    genesis slot ──▸ epoch 0 │ epoch 1 │ … │ the last whole epoch │ what is left of the slots

An epoch that ends within the slots there are holds the slots between its bounds (`epochOf_eq_iff`), also
where the slot after its last one is out of range and its end comes from a bound that has wrapped.  Of the
epoch behind it the last slot cuts something off, yet a slot in it is as far from its bounds as in any other
(`epochs_partition_slots`).
-/

namespace ManaWallet

namespace SlotClock

variable {c : SlotClock} {slot : SlotIndex} {epoch : EpochIndex}

/-! ## The next epoch -/

/-- **There is a number for the epoch after a slot's**, except where every slot from slot 0 on is an epoch
of its own, and then for all but the last slot. -/
theorem toNat_epochOf_add_one_lt_iff (hc : c.Bounded) (hslot : c.genesisSlot ≤ slot) :
    (c.epochOf slot).toNat + 1 < 2 ^ 32 ↔
      ¬ (c.slotsPerEpochExponent = 0 ∧ c.genesisSlot = 0 ∧ slot = 0xFFFFFFFF) := by
  have hword := slot.toNat_lt
  have hage : c.age slot = slot.toNat - c.genesisSlot.toNat := rfl
  have hle := Nat.div_le_self (c.age slot) c.epochLength
  rw [toNat_epochOf hc hslot]
  refine ⟨?_, fun hnot => Nat.lt_of_not_le fun hfull => hnot ?_⟩
  · rintro hnext ⟨hexponent, hgenesis, rfl⟩
    have hlength : c.epochLength = 1 := congrArg (fun x : UInt8 => 2 ^ x.toNat) hexponent
    rw [hage, hlength, Nat.div_one, hgenesis] at hnext
    exact absurd hnext (by decide)
  · -- the epoch has the largest number, so no slot is before it and none shares it
    have hself : c.age slot / c.epochLength = c.age slot := by omega
    have hlength : c.epochLength = 1 := (Nat.div_eq_self.mp hself).resolve_left (by omega)
    have hexponent : c.slotsPerEpochExponent.toNat = 0 :=
      (Nat.pow_eq_one.mp hlength).resolve_left (by decide)
    have hgenesis : c.genesisSlot.toNat = 0 := by omega
    have hlast : slot.toNat = 2 ^ 32 - 1 := by omega
    exact ⟨UInt8.toNat_inj.mp hexponent, UInt32.toNat_inj.mp hgenesis, UInt32.toNat_inj.mp hlast⟩

/-! ## The bounds of a whole epoch -/

/-- The first slot of an epoch that ends within the slots there are. -/
theorem toNat_epochStart_of_fits (hc : c.Bounded)
    (hfits : c.genesisSlot.toNat + (epoch.toNat + 1) * c.epochLength ≤ 2 ^ 32) :
    (c.epochStart epoch).toNat = c.genesisSlot.toNat + epoch.toNat * c.epochLength := by
  have hlength := c.epochLength_pos
  rw [Nat.add_mul, Nat.one_mul] at hfits
  rw [toNat_epochStart hc]
  exact Nat.mod_eq_of_lt (by omega)

/-- The last slot of such an epoch.  Where it is the last slot of all, the next epoch starts at a wrapped
bound, from which it comes by wrapping back. -/
theorem toNat_epochEnd_of_fits (hc : c.Bounded)
    (hfits : c.genesisSlot.toNat + (epoch.toNat + 1) * c.epochLength ≤ 2 ^ 32) :
    (c.epochEnd epoch).toNat
      = c.genesisSlot.toNat + epoch.toNat * c.epochLength + c.epochLength - 1 := by
  have hlength := c.epochLength_pos
  rw [Nat.add_mul, Nat.one_mul] at hfits
  rw [epochEnd, UInt32.toNat_sub, toNat_epochStart_succ hc, UInt32.toNat_one]
  omega

/-- **An epoch holds the slots between its bounds.** -/
theorem epochOf_eq_iff (hc : c.Bounded) (hslot : c.genesisSlot ≤ slot)
    (hfits : c.genesisSlot.toNat + (epoch.toNat + 1) * c.epochLength ≤ 2 ^ 32) :
    c.epochOf slot = epoch ↔ c.epochStart epoch ≤ slot ∧ slot ≤ c.epochEnd epoch := by
  have hlength := c.epochLength_pos
  rw [← UInt32.toNat_inj, toNat_epochOf hc hslot, Nat.div_eq_iff c.epochLength_pos,
    UInt32.le_iff_toNat_le, UInt32.le_iff_toNat_le, toNat_epochStart_of_fits hc hfits,
    toNat_epochEnd_of_fits hc hfits]
  rw [UInt32.le_iff_toNat_le] at hslot
  unfold age
  omega

/-! ## The partition -/

/-- **Epochs partition the slots.**  Later slots have later epochs.  From the genesis slot on, a slot's
epoch starts at or before it, and its distances to the start and to the next epoch add up to an epoch, even
where the next epoch starts past the last slot; only a next epoch without a number is left out.  And an
epoch that ends within the slots there are holds the slots between its bounds. -/
theorem epochs_partition_slots (hc : c.Bounded) :
    (∀ slot later : SlotIndex, slot ≤ later → c.epochOf slot ≤ c.epochOf later) ∧
    (∀ slot : SlotIndex, c.genesisSlot ≤ slot →
      ¬ (c.slotsPerEpochExponent = 0 ∧ c.genesisSlot = 0 ∧ slot = 0xFFFFFFFF) →
        c.epochStart (c.epochOf slot) ≤ slot ∧
          (c.epochOf slot).toNat + 1 < 2 ^ 32 ∧
          (c.slotsSinceEpochStart slot).toNat < c.epochLength ∧
          1 ≤ (c.slotsBeforeNextEpoch slot).toNat ∧
          (c.slotsBeforeNextEpoch slot).toNat + (c.slotsSinceEpochStart slot).toNat
            = c.epochLength) ∧
    (∀ epoch : EpochIndex,
      c.genesisSlot.toNat + (epoch.toNat + 1) * c.epochLength ≤ 2 ^ 32 →
        ∀ slot : SlotIndex, c.genesisSlot ≤ slot →
          (c.epochOf slot = epoch ↔ c.epochStart epoch ≤ slot ∧ slot ≤ c.epochEnd epoch)) := by
  refine ⟨fun slot later hle => epochOf_mono hc hle, fun slot hslot hlast => ?_,
    fun epoch hfits slot hslot => epochOf_eq_iff hc hslot hfits⟩
  have hrest : c.age slot % c.epochLength < c.epochLength := Nat.mod_lt _ c.epochLength_pos
  refine ⟨opening_le hc hslot, (toNat_epochOf_add_one_lt_iff hc hslot).mpr hlast, ?_⟩
  rw [toNat_slotsBeforeNextEpoch hc hslot, toNat_slotsSinceEpochStart hc hslot]
  omega

end SlotClock

/-- A clock with eight slots in an epoch that starts at slot 100. -/
def sampleClock : SlotClock where
  genesisSlot := 100
  genesisTime := 1695275822
  slotSeconds := 10
  slotsPerEpochExponent := 3

/-- The last slot is the fourth of an epoch of which only four are there; the epoch before it is whole. -/
theorem epochs_partition_slots_sample :
    ((sampleClock.slotsSinceEpochStart 0xFFFFFFFF).toNat = 3 ∧
      (sampleClock.slotsBeforeNextEpoch 0xFFFFFFFF).toNat + 3 = sampleClock.epochLength) ∧
    sampleClock.epochOf 4294967291 = 536870898 := by
  obtain ⟨-, hdistances, hholds⟩ :=
    SlotClock.epochs_partition_slots (c := sampleClock) (by decide)
  obtain ⟨-, -, -, -, hsum⟩ := hdistances 0xFFFFFFFF (by decide) (by decide)
  have hsince : (sampleClock.slotsSinceEpochStart 0xFFFFFFFF).toNat = 3 := by decide
  rw [hsince] at hsum
  exact ⟨⟨hsince, hsum⟩, (hholds 536870898 (by decide) 4294967291 (by decide)).mpr (by decide)⟩

end ManaWallet
