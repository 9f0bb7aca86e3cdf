import ManaWallet.Slot.Clock
import Mathlib.Algebra.Order.Ring.Int

/-!
# Proofs/Slot/Time — slots and times of a clock are adjoint

    slot ≤ slotAt time  ↔  exactStart slot ≤ time

A clock has reached a slot exactly when the slot has started (`le_slotAt_iff`), for every slot past the
genesis slot and every time, however far apart.  All else follows from this: that the start of a slot is in
it, that later times are in no earlier slot, and that a slot has started by every time in it
(`slotAt_adjoint_startOf`).

Neither end of the range of times disturbs it: a start past the latest time is told apart by its exact
second, and seconds since genesis that no longer fit in a word are past the last slot in any case
(`slotAt_eq_ofElapsed`).
-/

namespace ManaWallet

namespace SlotClock

variable {c : SlotClock} {slot : SlotIndex} {time : Int64}

/-- The second at which a slot past the genesis slot starts, also where it lies beyond the latest time. -/
def exactStart (c : SlotClock) (slot : SlotIndex) : ℤ :=
  c.genesisTime.toInt + ((slot.toNat - c.genesisSlot.toNat - 1) * c.slotSeconds.toNat : ℕ)

theorem slotSeconds_pos (hc : c.slotSeconds ≠ 0) : 0 < c.slotSeconds.toNat :=
  Nat.pos_of_ne_zero fun hzero => hc (UInt16.toNat_inj.mp hzero)

/-- Every slot takes some time. -/
theorem exactStart_lt_exactStart (hc : c.slotSeconds ≠ 0) {later : SlotIndex}
    (hslot : c.genesisSlot < slot) (h : slot < later) : c.exactStart slot < c.exactStart later := by
  rw [UInt32.lt_iff_toNat_lt] at hslot h
  have hseconds := Nat.mul_lt_mul_of_pos_right
    (by omega : slot.toNat - c.genesisSlot.toNat - 1 < later.toNat - c.genesisSlot.toNat - 1)
    (slotSeconds_pos hc)
  unfold exactStart
  omega

/-- The start of a slot is the exact one, or the latest time there is. -/
theorem toInt_startOf (hslot : c.genesisSlot < slot) :
    (c.startOf slot).toInt = min (c.exactStart slot) Int64.maxValue.toInt := by
  have hgenesis := Int64.le_toInt c.genesisTime
  have hmax := Int64.toInt_maxValue
  rw [startOf, if_neg (UInt32.not_le.mpr hslot)]
  refine Int64.toInt_ofInt_of_le ?_ ?_
  all_goals omega

/-! ## The slot at a time -/

/-- Before the genesis time there is the genesis slot only. -/
theorem slotAt_of_lt (h : time.toInt < c.genesisTime.toInt) : c.slotAt time = c.genesisSlot :=
  if_pos (Or.inl (by omega))

/-- From the genesis time on the slots that have passed are counted, up to the last one. -/
theorem toNat_slotAt (hc : c.slotSeconds ≠ 0) {elapsed : ℕ}
    (h : time.toInt = c.genesisTime.toInt + elapsed) :
    (c.slotAt time).toNat
      = min (c.genesisSlot.toNat + elapsed / c.slotSeconds.toNat + 1) (UInt32.size - 1) := by
  have helapsed : time.toInt - c.genesisTime.toInt = elapsed := by omega
  have hsince : ¬ ((elapsed : ℤ) < 0 ∨ c.slotSeconds = 0) :=
    not_or.mpr ⟨Int.not_lt.mpr (Int.natCast_nonneg elapsed), hc⟩
  rw [slotAt, helapsed, if_neg hsince, Int.toNat_natCast]
  exact UInt32.toNat_ofNat_of_lt' ((Nat.min_le_right _ _).trans_lt (by decide))

theorem genesisSlot_le_slotAt (hc : c.slotSeconds ≠ 0) (time : Int64) :
    c.genesisSlot ≤ c.slotAt time := by
  rcases lt_or_ge time.toInt c.genesisTime.toInt with hbefore | hsince
  · exact (slotAt_of_lt hbefore).symm ▸ UInt32.le_refl _
  · obtain ⟨elapsed, helapsed⟩ := Int.le.dest hsince
    have hword := c.genesisSlot.toNat_lt_size
    rw [UInt32.le_iff_toNat_le, toNat_slotAt hc helapsed.symm]
    exact Nat.le_min.mpr ⟨Nat.le_succ_of_le (Nat.le_add_right _ _), Nat.le_pred_of_lt hword⟩

/-- **A clock has reached a slot exactly when the slot has started.** -/
theorem le_slotAt_iff (hc : c.slotSeconds ≠ 0) (hslot : c.genesisSlot < slot) :
    slot ≤ c.slotAt time ↔ c.exactStart slot ≤ time.toInt := by
  have hword := slot.toNat_lt_size
  have hpast := UInt32.lt_iff_toNat_lt.mp hslot
  rw [UInt32.le_iff_toNat_le, exactStart]
  rcases lt_or_ge time.toInt c.genesisTime.toInt with hbefore | hsince
  · rw [slotAt_of_lt hbefore]
    omega
  · obtain ⟨elapsed, helapsed⟩ := Int.le.dest hsince
    -- the slot is within range, so that being capped at the last one does not matter to it
    have hpassed : slot.toNat ≤ (c.slotAt time).toNat ↔
        slot.toNat - c.genesisSlot.toNat - 1 ≤ elapsed / c.slotSeconds.toNat := by
      rw [toNat_slotAt hc helapsed.symm]
      omega
    rw [hpassed, Nat.le_div_iff_mul_le (slotSeconds_pos hc)]
    omega

/-! ## What the adjunction gives -/

/-- **The slot at a time has started** by then. -/
theorem exactStart_slotAt_le (hc : c.slotSeconds ≠ 0) (hpast : c.genesisSlot < c.slotAt time) :
    c.exactStart (c.slotAt time) ≤ time.toInt :=
  (le_slotAt_iff hc hpast).mp (UInt32.le_refl _)

theorem startOf_slotAt_le (hc : c.slotSeconds ≠ 0) (h : c.genesisTime ≤ time) :
    c.startOf (c.slotAt time) ≤ time := by
  rcases UInt32.lt_or_le c.genesisSlot (c.slotAt time) with hpast | hgenesis
  · rw [Int64.le_iff_toInt_le, toInt_startOf hpast]
    exact (min_le_left _ _).trans (exactStart_slotAt_le hc hpast)
  · rw [startOf, if_pos hgenesis]
    exact h

/-- **Later times** are in no earlier slot. -/
theorem slotAt_mono (hc : c.slotSeconds ≠ 0) {later : Int64} (h : time ≤ later) :
    c.slotAt time ≤ c.slotAt later := by
  rcases UInt32.lt_or_le c.genesisSlot (c.slotAt time) with hpast | hgenesis
  · have hstarted := exactStart_slotAt_le hc hpast
    exact (le_slotAt_iff hc hpast).mpr (hstarted.trans (Int64.le_iff_toInt_le.mp h))
  · exact UInt32.le_trans hgenesis (genesisSlot_le_slotAt hc later)

/-- **The start of a slot is in it**, unless it lies past the latest time. -/
theorem slotAt_startOf (hc : c.slotSeconds ≠ 0) (hslot : c.genesisSlot < slot)
    (hfits : c.exactStart slot ≤ Int64.maxValue.toInt) : c.slotAt (c.startOf slot) = slot := by
  have hstart : (c.startOf slot).toInt = c.exactStart slot := by
    rw [toInt_startOf hslot, min_eq_left hfits]
  have hreached : slot ≤ c.slotAt (c.startOf slot) := (le_slotAt_iff hc hslot).mpr hstart.ge
  refine UInt32.le_antisymm (UInt32.not_lt.mp fun hbeyond => ?_) hreached
  -- a slot further on would have started no later than this one
  have hstarted := exactStart_slotAt_le hc (UInt32.lt_trans hslot hbeyond)
  exact absurd (exactStart_lt_exactStart hc hslot hbeyond) (Int.not_lt.mpr (hstart ▸ hstarted))

/-! ## Seconds that do not fit -/

/-- The seconds since the genesis time, kept within 64 bits. -/
def elapsed (c : SlotClock) (time : Int64) : ℤ :=
  max Int64.minValue.toInt (min (time.toInt - c.genesisTime.toInt) Int64.maxValue.toInt)

/-- However long a slot lasts, the last one is over after as many seconds as fit in 64 bits. -/
theorem last_le_div (hc : c.slotSeconds ≠ 0) {seconds : ℕ} (h : 2 ^ 63 - 1 ≤ seconds) :
    UInt32.size - 1 ≤ seconds / c.slotSeconds.toNat := by
  have hword := c.slotSeconds.toNat_lt
  rw [Nat.le_div_iff_mul_le (slotSeconds_pos hc)]
  calc (UInt32.size - 1) * c.slotSeconds.toNat
      ≤ (UInt32.size - 1) * 2 ^ 16 := Nat.mul_le_mul_left _ hword.le
    _ ≤ 2 ^ 63 - 1 := by decide
    _ ≤ seconds := h

/-- **Seconds that do not fit** in 64 bits need not be counted: before the genesis time they do not matter,
and after it they are past the last slot. -/
theorem slotAt_eq_ofElapsed (c : SlotClock) (time : Int64) :
    c.slotAt time
      = if c.elapsed time < 0 ∨ c.slotSeconds = 0 then c.genesisSlot
        else .ofNat (min (c.genesisSlot.toNat + (c.elapsed time).toNat / c.slotSeconds.toNat + 1)
          (UInt32.size - 1)) := by
  have hmax := Int64.toInt_maxValue
  have hmin := Int64.toInt_minValue
  have hsign : c.elapsed time < 0 ↔ time.toInt - c.genesisTime.toInt < 0 := by
    unfold elapsed
    omega
  simp only [slotAt, hsign]
  split
  · rfl
  · next hsince =>
    obtain ⟨hpast, hc⟩ := not_or.mp hsince
    refine congrArg UInt32.ofNat ?_
    rcases le_or_gt (time.toInt - c.genesisTime.toInt) Int64.maxValue.toInt with hfits | hbeyond
    · have hexact : c.elapsed time = time.toInt - c.genesisTime.toInt := by
        unfold elapsed
        omega
      rw [hexact]
    · have hcapped : c.elapsed time = Int64.maxValue.toInt := by
        unfold elapsed
        omega
      have hlast := last_le_div hc (by omega : 2 ^ 63 - 1 ≤ (c.elapsed time).toNat)
      have hlast' := last_le_div hc
        (by omega : 2 ^ 63 - 1 ≤ (time.toInt - c.genesisTime.toInt).toNat)
      rw [Nat.min_eq_right (by omega), Nat.min_eq_right (by omega)]

/-! ## The adjunction -/

/-- **Slots and times are adjoint**, from the first slot on that starts at a time of its own up to the last
one that starts at a time there is.  So the start of such a slot is in it, later times are in no earlier
slot, and a slot has started by every time in it. -/
theorem slotAt_adjoint_startOf (hc : c.slotSeconds ≠ 0) :
    (∀ (time : Int64) (slot : SlotIndex), c.genesisSlot < slot →
      c.exactStart slot ≤ Int64.maxValue.toInt →
        (slot ≤ c.slotAt time ↔ c.startOf slot ≤ time)) ∧
    (∀ slot : SlotIndex, c.genesisSlot < slot → c.exactStart slot ≤ Int64.maxValue.toInt →
      c.slotAt (c.startOf slot) = slot) ∧
    (∀ time later : Int64, time ≤ later → c.slotAt time ≤ c.slotAt later) ∧
    (∀ time : Int64, c.genesisTime ≤ time → c.startOf (c.slotAt time) ≤ time) := by
  refine ⟨fun time slot hslot hfits => ?_, fun slot hslot hfits => slotAt_startOf hc hslot hfits,
    fun time later h => slotAt_mono hc h, fun time h => startOf_slotAt_le hc h⟩
  rw [le_slotAt_iff hc hslot, Int64.le_iff_toInt_le, toInt_startOf hslot, min_eq_left hfits]

end SlotClock

/-- A clock that starts 25 seconds before the latest time there is. -/
def SlotClock.late : SlotClock where
  genesisSlot := 100
  genesisTime := 9223372036854775782
  slotSeconds := 10
  slotsPerEpochExponent := 3

/-- It reaches slot 103 twenty seconds later and not before, and no slot behind it: the next one would start
past the latest time. -/
theorem slotAt_adjoint_startOf_sample :
    SlotClock.late.exactStart 103 ≤ Int64.maxValue.toInt ∧
      103 ≤ SlotClock.late.slotAt 9223372036854775802 ∧
      ¬ 103 ≤ SlotClock.late.slotAt 9223372036854775801 ∧
      SlotClock.late.slotAt (SlotClock.late.startOf 103) = 103 ∧
      SlotClock.late.slotAt (SlotClock.late.startOf 104) = 103 ∧
      SlotClock.late.startOf (SlotClock.late.slotAt Int64.maxValue) ≤ Int64.maxValue := by
  obtain ⟨hreached, hstart, -, hstarted⟩ :=
    SlotClock.slotAt_adjoint_startOf (c := SlotClock.late) (by decide)
  have hpast : SlotClock.late.genesisSlot < 103 := by decide
  have hfits : SlotClock.late.exactStart 103 ≤ Int64.maxValue.toInt := by decide
  refine ⟨hfits, (hreached _ 103 hpast hfits).mpr (by decide), fun hbefore => ?_, hstart 103 hpast hfits,
    by decide, hstarted _ (by decide)⟩
  exact absurd ((hreached _ 103 hpast hfits).mp hbefore) (by decide)

end ManaWallet
