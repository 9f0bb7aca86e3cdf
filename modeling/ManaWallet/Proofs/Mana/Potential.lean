import ManaWallet.Proofs.Arithmetic.Wide
import ManaWallet.Proofs.Mana.Decay
import ManaWallet.Proofs.Slot.Clock

/-!
# Proofs/Mana/Potential — what potential mana is made of

    same epoch ─────▸ the slots between
    next epoch ─────▸ slots before the boundary, decayed once, and slots behind it
    later epochs ───▸ both of these, and the series for the epochs between

Generation and the series' constant are products of naturals, divided and rounded down
(`toNat_generate`, `toNat_seriesConstant`); where there is a result, its parts add up to it without
overflow (`accrues_of_potential`).
-/

namespace ManaWallet

namespace ManaSchedule

variable {s : ManaSchedule}

/-! ## Generation -/

/-- A word of 32 bits times a rate of 8 bits. -/
theorem toNat_mul_rate (x : UInt32) (rate : UInt8) :
    (x.toUInt64 * rate.toUInt64).toNat = x.toNat * rate.toNat :=
  Halves.toNat_mul_of_lt x.toNat_lt (rate.toNat_lt.trans (by decide))

/-- Generation is a scaled product, also where no slot counts. -/
theorem generate_eq_scaledProduct (amount : BaseToken) (slots : SlotIndex)
    (hexponent : s.parameters.generationRateExponent.toNat < 96) :
    s.generate amount slots
      = scaledProduct amount (slots.toUInt64 * s.parameters.generationRate.toUInt64)
          s.parameters.generationRateExponent.toUInt32 := by
  unfold generate
  split
  · next hnone =>
    have hzero : slots.toUInt64 * s.parameters.generationRate.toUInt64 = 0 := by
      rcases hnone with rfl | hrate
      · exact UInt64.zero_mul
      · rw [hrate]
        exact UInt64.mul_zero
    have hshort : s.parameters.generationRateExponent.toUInt32.toNat < 96 := hexponent
    rw [hzero, scaledProduct_zero amount hshort]
  · rfl

/-- **Generation is exact**, as far as the result fits, while slots times rate fit in 32 bits. -/
theorem toNat_generate (amount : BaseToken) {slots : SlotIndex}
    (hrate : slots.toNat * s.parameters.generationRate.toNat < 2 ^ 32)
    (hexponent : s.parameters.generationRateExponent.toNat < 96) :
    (s.generate amount slots).toNat
      = amount.toNat * (slots.toNat * s.parameters.generationRate.toNat)
        / 2 ^ s.parameters.generationRateExponent.toNat % 2 ^ 64 := by
  have hfactor := toNat_mul_rate slots s.parameters.generationRate
  have hshort : s.parameters.generationRateExponent.toUInt32.toNat < 96 := hexponent
  rw [generate_eq_scaledProduct amount slots hexponent,
    toNat_scaledProduct amount (hfactor ▸ hrate) hshort, hfactor]
  rfl

/-! ## The series -/

/-- The power of two below the series' constant: exponents of words add up without overflow. -/
theorem seriesScale_eq_ok_iff {scale : UInt64} : s.seriesScale = .ok scale ↔
    scale.toNat + s.slotsPerEpochExponent.toNat
      = s.parameters.decayFactorEpochsSumExponent.toNat
        + s.parameters.generationRateExponent.toNat := by
  have hsum := s.parameters.decayFactorEpochsSumExponent.toNat_lt
  have hrate := s.parameters.generationRateExponent.toNat_lt
  rw [seriesScale, checkedSub_eq_ok_iff, UInt64.toNat_add, UInt8.toNat_toUInt64,
    UInt8.toNat_toUInt64, UInt8.toNat_toUInt64, Nat.mod_eq_of_lt (by omega)]

/-- **The series' constant is exact**, as far as it fits. -/
theorem toNat_seriesConstant (amount : BaseToken) {scale : UInt64}
    (hsum : s.parameters.decayFactorEpochsSum.toNat * s.parameters.generationRate.toNat < 2 ^ 32)
    (hscale : scale.toNat < 96) :
    (s.seriesConstant amount scale).toNat
      = amount.toNat * (s.parameters.decayFactorEpochsSum.toNat * s.parameters.generationRate.toNat)
        / 2 ^ scale.toNat % 2 ^ 64 := by
  have hfactor := toNat_mul_rate s.parameters.decayFactorEpochsSum s.parameters.generationRate
  have hshort : scale.toUInt32.toNat = scale.toNat := by
    rw [UInt64.toNat_toUInt32, Nat.mod_eq_of_lt (by omega)]
  rw [seriesConstant, toNat_scaledProduct amount (hfactor ▸ hsum) (hshort ▸ hscale), hfactor, hshort]

/-! ## The three cases -/

/-- How potential mana comes about, by the number of epochs that begin between the slots. -/
inductive Accrues (s : ManaSchedule) (amount : BaseToken) (creation target : SlotIndex) (v : Mana) :
    Prop where
  | sameEpoch (hepoch : s.clock.epochOf target = s.clock.epochOf creation)
      (hslots : creation ≤ target) (hv : v = s.generate amount (target - creation))
  | nextEpoch
      (hepoch : (s.clock.epochOf target).toNat = (s.clock.epochOf creation).toNat + 1)
      (hv : v.toNat = (s.decay (s.generate amount (s.clock.slotsBeforeNextEpoch creation)) 1).toNat
        + (s.generate amount (s.clock.slotsSinceEpochStart target)).toNat)
  | laterEpoch (epochs : EpochIndex) (hepochs : 2 ≤ epochs.toNat)
      (hepoch : (s.clock.epochOf target).toNat = (s.clock.epochOf creation).toNat + epochs.toNat)
      (scale : UInt64) (hscale : s.seriesScale = .ok scale)
      (hv : v.toNat + (s.seriesConstant amount scale
              >>> s.parameters.decayFactorsExponent.toUInt64).toNat
            + (s.decay (s.seriesConstant amount scale) (epochs - 1)).toNat
          = (s.seriesConstant amount scale).toNat
            + (s.generate amount (s.clock.slotsSinceEpochStart target)).toNat
            + (s.decay (s.generate amount (s.clock.slotsBeforeNextEpoch creation)) epochs).toNat)

/-- A checked result of mana is one of the arithmetic. -/
theorem checked_eq_ok {α : Type} {x : Except ArithmeticError α} {a : α}
    (h : checked x = .ok a) : x = .ok a := mapError_eq_ok_iff.mp h

/-- **Potential mana is the sum of its parts.** -/
theorem accrues_of_potential {amount : BaseToken} {creation target : SlotIndex} {v : Mana}
    (h : s.potential amount creation target = .ok v) : s.Accrues amount creation target v := by
  unfold potential at h
  dsimp only at h
  split at h
  · nomatch h
  · next hforward =>
    have hle : s.clock.epochOf creation ≤ s.clock.epochOf target := UInt32.not_lt.mp hforward
    have hsub := UInt32.toNat_sub_of_le _ _ hle
    rw [UInt32.le_iff_toNat_le] at hle
    split at h
    · next hsame =>
      split at h
      · nomatch h
      · next hslots => exact .sameEpoch hsame (UInt32.not_lt.mp hslots) (Except.ok.inj h).symm
    · next hother =>
      have hne : (s.clock.epochOf target).toNat ≠ (s.clock.epochOf creation).toNat :=
        fun heq => hother (UInt32.toNat_inj.mp heq)
      split at h
      · next hone =>
        rw [hone, UInt32.toNat_one] at hsub
        exact .nextEpoch (by omega) (checkedAdd_eq_ok_iff.mp (checked_eq_ok h))
      · next hmany =>
        have hne' : (s.clock.epochOf target - s.clock.epochOf creation).toNat ≠ 1 :=
          fun heq => hmany (UInt32.toNat_inj.mp heq)
        have hparts := checked_eq_ok h
        simp only [bind_eq_ok_iff, checkedAdd_eq_ok_iff, checkedSub_eq_ok_iff] at hparts
        obtain ⟨scale, hscale, between, hbetween, behind, hbehind, total, htotal, hv⟩ := hparts
        exact .laterEpoch (s.clock.epochOf target - s.clock.epochOf creation) (by omega) (by omega)
          scale hscale (by omega)

end ManaSchedule

end ManaWallet
