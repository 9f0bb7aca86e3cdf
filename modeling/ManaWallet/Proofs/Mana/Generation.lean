import ManaWallet.Proofs.Mana.Formula

/-!
# Proofs/Mana/Generation — how far generation is exact

    validated ────────▸ sum of factors · rate < 2 ^ 32     (the constant of the series)
    not validated ────▸ slots · rate                       (generation)

Slots times rate have up to 40 bits, and a factor of more than 32 can lose what tokens generate, but never
adds to it (`generate_exact_iff`).  The factors of a network all fit if the rate is one at most, and those
that potential mana needs if the rate of a whole epoch fits (`slotsFactor_span_lt`).
-/

namespace ManaWallet

/-- The factor by which tokens are multiplied for a number of slots. -/
def ManaSchedule.slotsFactor (s : ManaSchedule) (slots : SlotIndex) : ℕ :=
  slots.toNat * s.parameters.generationRate.toNat

namespace ManaSchedule

variable {s : ManaSchedule} {amount : BaseToken} {slots : SlotIndex}

/-- **The factors of all numbers of slots fit in 32 bits** exactly if the rate is one at most. -/
theorem forall_slotsFactor_lt_iff :
    (∀ slots, s.slotsFactor slots < 2 ^ 32) ↔ s.parameters.generationRate.toNat ≤ 1 := by
  constructor
  · intro hall
    have hlast : (2 ^ 32 - 1) * s.parameters.generationRate.toNat < 2 ^ 32 := hall (-1)
    omega
  · intro hone slots
    exact (mul_le_of_le_one_right' hone).trans_lt slots.toNat_lt

/-- Over a scale of 32 at most, what fits in a word has 96 bits at most; over a wider one no more than 96
bits are kept. -/
theorem lt_two_pow_min_iff {product exponent : ℕ} (hfits : product / 2 ^ exponent < 2 ^ 64) :
    product < 2 ^ (64 + min exponent 32) ↔ product < 2 ^ 96 := by
  rcases Nat.le_total exponent 32 with hshort | hlong
  · have hle : (2 : ℕ) ^ (64 + exponent) ≤ 2 ^ 96 :=
      Nat.pow_le_pow_right Nat.two_pos (Nat.add_le_add_left hshort 64)
    have hword := (Nat.div_lt_iff_lt_mul (Nat.two_pow_pos _)).mp hfits
    rw [← pow_add] at hword
    rw [Nat.min_eq_left hshort]
    exact ⟨fun _ => hword.trans_le hle, fun _ => hword⟩
  · rw [Nat.min_eq_right hlong]

/-- **What is generated is exact** exactly if neither the product of the lower half of the tokens nor the
whole one wraps. -/
theorem toNat_generate_eq_iff (hexponent : s.parameters.generationRateExponent.toNat ≤ 64)
    (hfits : (s.floorFigures amount).grown slots < 2 ^ 64) :
    (s.generate amount slots).toNat = (s.floorFigures amount).grown slots ↔
      amount.toNat % 2 ^ 32 * s.slotsFactor slots < 2 ^ 64 ∧
        amount.toNat * s.slotsFactor slots < 2 ^ 96 := by
  have hshort : s.parameters.generationRateExponent.toUInt32.toNat ≤ 64 := hexponent
  have hiff := toNat_scaledProduct_eq_iff amount
    (slots.toUInt64 * s.parameters.generationRate.toUInt64) hshort
  rw [toNat_mul_rate, ← generate_eq_scaledProduct amount slots (by omega)] at hiff
  exact hiff.trans (and_congr_right fun _ => lt_two_pow_min_iff hfits)

/-- **Generation never gives too much.** -/
theorem toNat_generate_le (hexponent : s.parameters.generationRateExponent.toNat < 96) :
    (s.generate amount slots).toNat ≤ (s.floorFigures amount).grown slots := by
  have hshort : s.parameters.generationRateExponent.toUInt32.toNat < 96 := hexponent
  have hle := toNat_scaledProduct_le amount
    (slots.toUInt64 * s.parameters.generationRate.toUInt64) hshort
  rw [toNat_mul_rate, ← generate_eq_scaledProduct amount slots hexponent] at hle
  exact hle

end ManaSchedule

namespace Protocol

variable {p : Protocol} {creation target : SlotIndex}

/-- The factors that potential mana needs are those of an epoch. -/
theorem slotsFactor_span_lt
    (hepoch : p.clock.epochLength * p.parameters.manaParameters.generationRate.toNat < 2 ^ 32)
    (hgenesis : p.clock.genesisSlot ≤ creation) (hle : creation ≤ target) :
    ∀ slots ∈ (p.clock.span creation target).slots, p.schedule.slotsFactor slots < 2 ^ 32 := by
  intro slots hslots
  have hshort := SlotClock.slots_span_le p.bounded_clock hgenesis hle slots hslots
  exact (Nat.mul_le_mul_right _ hshort).trans_lt hepoch

/-- **Generation on a network**, where the exact amount fits in a word: it is exact exactly if the factor
makes neither the product of the lower half of the tokens nor the whole one wrap, so for every factor that
fits in 32 bits; and never too much.  Validation bounds the factor of the series, but that of the slots
only if the rate is one at most. -/
theorem generate_exact_iff (p : Protocol) (amount : BaseToken) (slots : SlotIndex)
    (hfits : amount.toNat * p.schedule.slotsFactor slots
      / 2 ^ p.parameters.manaParameters.generationRateExponent.toNat < 2 ^ 64) :
    ((p.schedule.generate amount slots).toNat = amount.toNat * p.schedule.slotsFactor slots
          / 2 ^ p.parameters.manaParameters.generationRateExponent.toNat ↔
        amount.toNat % 2 ^ 32 * p.schedule.slotsFactor slots < 2 ^ 64 ∧
          amount.toNat * p.schedule.slotsFactor slots < 2 ^ 96) ∧
      (p.schedule.slotsFactor slots < 2 ^ 32 →
        (p.schedule.generate amount slots).toNat = amount.toNat * p.schedule.slotsFactor slots
          / 2 ^ p.parameters.manaParameters.generationRateExponent.toNat) ∧
      (p.schedule.generate amount slots).toNat ≤ amount.toNat * p.schedule.slotsFactor slots
          / 2 ^ p.parameters.manaParameters.generationRateExponent.toNat ∧
      p.parameters.manaParameters.decayFactorEpochsSum.toNat
          * p.parameters.manaParameters.generationRate.toNat < 2 ^ 32 ∧
      ((∀ slots, p.schedule.slotsFactor slots < 2 ^ 32) ↔
        p.parameters.manaParameters.generationRate.toNat ≤ 1) := by
  have hiff := ManaSchedule.toNat_generate_eq_iff p.rateExponent_lt.le hfits
  refine ⟨hiff, fun hfactor => hiff.mpr ⟨?_, ?_⟩,
    ManaSchedule.toNat_generate_le (p.rateExponent_lt.trans (by decide)), p.fit.sum_lt,
    ManaSchedule.forall_slotsFactor_lt_iff⟩
  · exact (Nat.mul_lt_mul'' (Nat.mod_lt amount.toNat (Nat.two_pow_pos 32)) hfactor).trans_eq (by decide)
  · exact (Nat.mul_lt_mul'' amount.toNat_lt hfactor).trans_eq (by decide)

end Protocol

/-! ## A rate that validation lets through -/

/-- Constants by which an epoch has `2 ^ 25` slots and each of them counts 255 times. -/
def ProtocolParameters.steep : ProtocolParameters where
  slotsPerEpochExponent := 25
  manaParameters :=
    { ManaParameters.standard with
      generationRate := 255
      decayFactorEpochsSum := 9456704
      decayFactorEpochsSumExponent := 13 }

/-- Validation looks at the sum of factors times the rate, and lets them through. -/
theorem ProtocolParameters.validate_steep : ProtocolParameters.steep.validate = .ok () :=
  validate_of_untabled (by decide) (by decide +kernel)

/-- The network with these constants. -/
def Protocol.steep : Protocol where
  parameters := .steep
  valid := ProtocolParameters.validate_steep
  exponent_le := by decide

/-- **Mana that is lost**: where slots times rate exceed 32 bits by 254, all but a fraction of what the
tokens generate is. -/
theorem wide_factor_loses_mana :
    ProtocolParameters.steep.validate = .ok () ∧
      Protocol.steep.schedule.slotsFactor 16843010 = 2 ^ 32 + 254 ∧
      (Protocol.steep.schedule.floorFigures 4294967295).grown 16843010 = 140737496645631 ∧
      Protocol.steep.schedule.generate 4294967295 16843010 = 8290303 ∧
      Protocol.steep.schedule.potential 4294967295 0 16843010 = .ok 8290303 :=
  ⟨ProtocolParameters.validate_steep, by decide +kernel, by decide +kernel, by decide +kernel, by decide +kernel⟩

/-- The last amount below `2 ^ 32` that is exact for this factor, and the first that is not. -/
theorem generate_exact_iff_sample :
    (Protocol.steep.schedule.generate 4294967042 16843010).toNat = 140737488355327 ∧
      (Protocol.steep.schedule.generate 4294967043 16843010).toNat ≠ 140737488388095 := by
  obtain ⟨hlast, -⟩ := Protocol.steep.generate_exact_iff 4294967042 16843010 (by decide +kernel)
  obtain ⟨hfirst, -⟩ := Protocol.steep.generate_exact_iff 4294967043 16843010 (by decide +kernel)
  constructor
  · exact hlast.mpr ⟨by decide +kernel, by decide +kernel⟩
  · intro hexact
    exact absurd (hfirst.mp hexact).1 (by decide +kernel)

end ManaWallet
