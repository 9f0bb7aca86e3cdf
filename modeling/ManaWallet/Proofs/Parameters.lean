import ManaWallet.Parameters.Protocol
import ManaWallet.Proofs.Result
import Mathlib.Algebra.GroupWithZero.Nat

/-!
# Proofs/Parameters — what validation accepts

Validation names the first constant that does not fit; a network's constants pass it exactly if none of
them is such (`validate_eq_ok_iff`).
-/

namespace ManaWallet

namespace ProtocolParameters

/-- Constants that the fixed-point arithmetic of mana can work with. -/
structure Fit (p : ProtocolParameters) : Prop where
  slotSeconds_ne : p.slotDurationInSeconds ≠ 0
  epochExponent_lt : p.slotsPerEpochExponent < 32
  bits_pos : 0 < p.manaParameters.bitsCount
  bits_le : p.manaParameters.bitsCount ≤ 64
  rateExponent_lt : p.manaParameters.generationRateExponent < 64
  factorsExponent_lt : p.manaParameters.decayFactorsExponent < 64
  sumExponent_lt : p.manaParameters.decayFactorEpochsSumExponent < 64
  scale_nonneg : p.slotsPerEpochExponent.toNat
    ≤ p.manaParameters.decayFactorEpochsSumExponent.toNat
      + p.manaParameters.generationRateExponent.toNat
  scale_lt : p.manaParameters.decayFactorEpochsSumExponent.toNat
    + p.manaParameters.generationRateExponent.toNat < 96
  factor_le : ∀ index, (p.manaParameters.decayFactors.getD index 0).toNat
    ≤ 2 ^ p.manaParameters.decayFactorsExponent.toNat
  sum_lt : p.manaParameters.decayFactorEpochsSum.toNat * p.manaParameters.generationRate.toNat
    < UInt32.size

variable {m : ManaParameters}

/-- An exponent is accepted exactly if its condition holds. -/
theorem requireExponent_eq_ok_iff {name : String} {value : UInt8} {holds : Bool} :
    requireExponent name value holds = .ok () ↔ holds = true := by
  unfold requireExponent
  cases holds <;> simp

/-- The decay factors are accepted exactly if none is above one. -/
theorem validateDecayFactors_eq_ok_iff : validateDecayFactors m = .ok () ↔
    ∀ index, (m.decayFactors.getD index 0).toNat ≤ 2 ^ m.decayFactorsExponent.toNat := by
  have hnone : validateDecayFactors m = .ok () ↔
      (m.decayFactors.findIdx? fun factor => 1 <<< m.decayFactorsExponent.toNat < factor.toNat) = none := by
    unfold validateDecayFactors
    split
    · next h => simp [h]
    · next h => simp [h]
  rw [hnone, Array.findIdx?_eq_none_iff]
  simp only [decide_eq_false_iff_not, Nat.not_lt, Nat.shiftLeft_eq, Nat.one_mul]
  constructor
  · intro hall index
    rw [Array.getD_eq_getD_getElem?]
    cases hfound : m.decayFactors[index]? with
    | none => exact Nat.zero_le _
    | some factor => exact hall factor (Array.mem_of_getElem? hfound)
  · intro hall factor hmem
    obtain ⟨index, hfound⟩ := Array.mem_iff_getElem?.mp hmem
    have hle := hall index
    rw [Array.getD_eq_getD_getElem?, hfound] at hle
    exact hle

/-- The sum is accepted exactly if it fits in 32 bits with the rate. -/
theorem validateEpochsSum_eq_ok_iff : validateEpochsSum m = .ok () ↔
    m.decayFactorEpochsSum.toNat * m.generationRate.toNat < UInt32.size := by
  unfold validateEpochsSum
  split
  · next h => exact ⟨fun _ => h, fun _ => rfl⟩
  · next h => exact ⟨nofun, fun h' => absurd h' h⟩

/-- Goes on after a check that gives nothing, exactly if the check is passed. -/
theorem check_then_iff {ε : Type} {check : Except ε Unit} {rest : Except ε Unit} :
    (do check; rest) = .ok () ↔ check = .ok () ∧ rest = .ok () := by
  cases check <;> simp [bind, Except.bind]

/-- **Validation accepts exactly the constants that fit.** -/
theorem validate_eq_ok_iff {p : ProtocolParameters} : p.validate = .ok () ↔ p.Fit := by
  unfold validate
  dsimp only
  split
  · next hzero =>
    exact ⟨nofun, fun h => absurd hzero h.slotSeconds_ne⟩
  · next hslot =>
    simp only [check_then_iff, requireExponent_eq_ok_iff, validateDecayFactors_eq_ok_iff,
      validateEpochsSum_eq_ok_iff, decide_eq_true_eq]
    constructor
    · rintro ⟨hepoch, ⟨hbits, hbits'⟩, hrate, hfactors, hsum, ⟨hscale, hscale'⟩, hfactor, hfits⟩
      exact ⟨hslot, hepoch, hbits, hbits', hrate, hfactors, hsum, hscale, hscale', hfactor, hfits⟩
    · intro h
      exact ⟨h.epochExponent_lt, ⟨h.bits_pos, h.bits_le⟩, h.rateExponent_lt, h.factorsExponent_lt,
        h.sumExponent_lt, ⟨h.scale_nonneg, h.scale_lt⟩, h.factor_le, h.sum_lt⟩

/-- **No table is refused over `2 ^ 32` or more**: all factors of 32 bits are below one there, so it is
enough to validate the other constants. -/
theorem validate_of_untabled {p : ProtocolParameters}
    (hwide : 32 ≤ p.manaParameters.decayFactorsExponent.toNat)
    (hrest : { p with manaParameters := { p.manaParameters with decayFactors := #[] } }.validate
      = .ok ()) :
    p.validate = .ok () := by
  have hfit := validate_eq_ok_iff.mp hrest
  refine validate_eq_ok_iff.mpr { hfit with factor_le := fun index => ?_ }
  exact Nat.le_trans (Nat.le_of_lt (UInt32.toNat_lt _)) (Nat.pow_le_pow_right Nat.two_pos hwide)

end ProtocolParameters

end ManaWallet
