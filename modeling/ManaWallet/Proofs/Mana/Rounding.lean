import ManaWallet.Proofs.Mana.Formula
import ManaWallet.Proofs.Standard
import Mathlib.Algebra.BigOperators.Group.List.Lemmas
import Mathlib.Data.Nat.Cast.Order.Field
import Mathlib.Data.Rat.Cast.Order
import Mathlib.Tactic.Linarith

/-!
# Proofs/Mana/Rounding — how far rounding takes potential mana

    product ── less than 1 ──▸ pass ── + 1 ──▸ pass ── + 1 ──▸ …

Every product is rounded down, so what is computed falls short of the exact number by less than the number
of roundings it went through: a factor up to one lets no shortfall grow (`Rounded.scaled`).  The case
formula adds some figures and takes others off, so potential mana is off to both sides, by the passes of
one decay and three more roundings at most (`abs_sub_value_lt`).
-/

namespace ManaWallet

/-! ## Roundings -/

/-- A natural that falls short of an exact number by less than some error. -/
structure Rounded (x : ℕ) (r error : ℚ) : Prop where
  le : x ≤ r
  lt_add : r < x + error

/-- A quotient that is rounded down falls short by less than one. -/
theorem rounded_div (x : ℕ) {y : ℕ} (hy : 0 < y) : Rounded (x / y) ((x : ℚ) / y) 1 where
  le := Nat.cast_div_le
  lt_add := by
    rw [div_lt_iff₀ (Nat.cast_pos.mpr hy)]
    exact_mod_cast Nat.lt_mul_of_div_lt (Nat.lt_succ_self _) hy

/-- Nothing falls short of itself. -/
theorem rounded_zero {error : ℚ} (h : 0 < error) : Rounded 0 0 error where
  le := Nat.cast_zero.le
  lt_add := by
    rw [Nat.cast_zero, zero_add]
    exact h

namespace Rounded

variable {x : ℕ} {r error : ℚ}

/-- **A factor up to one adds one rounding**, and lets no shortfall grow. -/
theorem scaled (h : Rounded x r error) {factor unit : ℕ} (hunit : 0 < unit) (hle : factor ≤ unit) :
    Rounded (x * factor / unit) (r * (factor / unit)) (error + 1) := by
  obtain ⟨hbelow, habove⟩ := rounded_div (x * factor) hunit
  have hnonneg : (0 : ℚ) ≤ factor / unit := div_nonneg (Nat.cast_nonneg _) (Nat.cast_nonneg _)
  have hone : (factor : ℚ) / unit ≤ 1 :=
    div_le_one_of_le₀ (Nat.cast_le.mpr hle) (Nat.cast_nonneg _)
  rw [Nat.cast_mul, mul_div_assoc] at hbelow habove
  have hgrows := mul_le_mul_of_nonneg_right h.le hnonneg
  have hshort : (r - x) * (factor / unit) ≤ r - x :=
    mul_le_of_le_one_right (sub_nonneg.mpr h.le) hone
  have herror := h.lt_add
  exact ⟨hbelow.trans hgrows, by linarith⟩

/-- A part of the unit is one rounding. -/
theorem div (h : Rounded x r error) {unit : ℕ} (hunit : 0 < unit) :
    Rounded (x / unit) (r / unit) (error + 1) := by
  have hpart := h.scaled hunit hunit
  rwa [Nat.mul_one, Nat.cast_one, mul_one_div] at hpart

/-- Shortfalls add up. -/
theorem add (h : Rounded x r error) {y : ℕ} {t error' : ℚ} (h' : Rounded y t error') :
    Rounded (x + y) (r + t) (error + error') where
  le := by
    have hle := add_le_add h.le h'.le
    exact_mod_cast hle
  lt_add := by
    have hlt := add_lt_add h.lt_add h'.lt_add
    push_cast
    linarith

/-- A shortfall below some error is below any more. -/
theorem mono (h : Rounded x r error) {more : ℚ} (hle : error ≤ more) : Rounded x r more where
  le := h.le
  lt_add := h.lt_add.trans_le (add_le_add_right hle _)

/-- **Shortfalls of what is gained and of what is lost** go to either side. -/
theorem abs_sub_lt (h : Rounded x r error) {y : ℕ} {t : ℚ} (h' : Rounded y t error) {n : ℕ}
    (hn : n + y = x) : |(n : ℚ) - (r - t)| < error := by
  have hsum : (n : ℚ) + y = x := by exact_mod_cast hn
  obtain ⟨hle, hlt⟩ := h
  obtain ⟨hle', hlt'⟩ := h'
  rw [abs_sub_lt_iff]
  constructor <;> linarith

end Rounded

/-! ## Decay without rounding -/

namespace ManaSchedule

variable {s : ManaSchedule}

/-- What decay leaves of one, if nothing is rounded: the factors of the strides over the unit. -/
def share (s : ManaSchedule) (epochs : ℕ) : ℚ :=
  ((s.strides epochs).map fun n => (s.factor n : ℚ) / s.unit).prod

/-- Every pass is one rounding. -/
theorem rounded_foldl_pass (hs : s.Damped) (strides : List ℕ) {x : ℕ} {r error : ℚ}
    (h : Rounded x r error) :
    Rounded (strides.foldl (fun y n => s.pass n y) x)
      (r * (strides.map fun n => (s.factor n : ℚ) / s.unit).prod) (error + strides.length) := by
  induction strides generalizing x r error with
  | nil => simpa using h
  | cons n rest ih =>
    rw [List.map_cons, List.prod_cons, ← mul_assoc, List.length_cons, Nat.cast_succ, add_comm _ 1,
      ← add_assoc]
    exact ih (h.scaled s.unit_pos (hs n))

/-- **Decay is one rounding for each stride.** -/
theorem rounded_left (hs : s.Damped) {x : ℕ} {r error : ℚ} (h : Rounded x r error) (epochs : ℕ) :
    Rounded (s.left x epochs) (r * s.share epochs) (error + (epochs ⌈/⌉ s.horizon : ℕ)) := by
  rw [left_eq_foldl, share, ← length_strides]
  exact rounded_foldl_pass hs _ h

/-! ## The case formula without rounding -/

/-- The figures in rationals, none of them rounded. -/
def exactFigures (s : ManaSchedule) (amount : BaseToken) : Figures ℚ where
  grown slots := amount.toNat * (slots.toNat * s.parameters.generationRate.toNat)
    / 2 ^ s.parameters.generationRateExponent.toNat
  constant := amount.toNat
    * (s.parameters.decayFactorEpochsSum.toNat * s.parameters.generationRate.toNat)
    / 2 ^ s.seriesExponent
  left x epochs := x * s.share epochs
  overUnit x := x / s.unit

end ManaSchedule

namespace Figures

variable {α : Type}

/-- All that the case formula counts in favour of a span. -/
def gained [Add α] (f : Figures α) : Span → α
  | .within slots => f.grown slots
  | .across before behind => f.left (f.grown before) 1 + f.grown behind
  | .beyond before behind more => f.constant + f.grown behind + f.left (f.grown before) (more + 2)

/-- All that the case formula counts against a span. -/
def lost [Zero α] [Add α] (f : Figures α) : Span → α
  | .within _ | .across _ _ => 0
  | .beyond _ _ more => f.left f.constant (more + 1) + f.overUnit f.constant

theorem value_eq_gained_sub_lost (f : Figures ℚ) (span : Span) :
    f.value span = f.gained span - f.lost span := by
  cases span <;> simp only [value, added, takenOff, gained, lost, List.sum_cons, List.sum_nil] <;> ring

/-- In naturals nothing is subtracted, as decay never gives. -/
theorem add_lost_eq_gained {f : Figures ℕ} (hleft : ∀ x epochs, f.left x epochs ≤ x) {span : Span} {n : ℕ}
    (h : n + f.takenOff span = (f.added span).sum) : n + f.lost span = f.gained span := by
  cases span with
  | within | across => exact h
  | beyond before behind more =>
    have hkept := hleft f.constant (more + 1)
    simp only [added, takenOff, List.sum_cons, List.sum_nil] at h
    simp only [lost, gained]
    omega

end Figures

namespace ManaSchedule

variable {s : ManaSchedule} {span : Span}

theorem rounded_grown (s : ManaSchedule) (amount : BaseToken) (slots : SlotIndex) :
    Rounded ((s.floorFigures amount).grown slots) ((s.exactFigures amount).grown slots) 1 := by
  have h := rounded_div (amount.toNat * (slots.toNat * s.parameters.generationRate.toNat))
    (Nat.two_pow_pos s.parameters.generationRateExponent.toNat)
  push_cast at h
  exact h

theorem rounded_constant (s : ManaSchedule) (amount : BaseToken) :
    Rounded (s.floorFigures amount).constant (s.exactFigures amount).constant 1 := by
  have h := rounded_div (amount.toNat
      * (s.parameters.decayFactorEpochsSum.toNat * s.parameters.generationRate.toNat))
    (Nat.two_pow_pos s.seriesExponent)
  push_cast at h
  exact h

/-- What is gained goes through three products at most, and the passes of one decay. -/
theorem rounded_gained (hs : s.Damped) (amount : BaseToken) (span : Span) :
    Rounded ((s.floorFigures amount).gained span) ((s.exactFigures amount).gained span)
      ((span.epochs ⌈/⌉ s.horizon : ℕ) + 3) := by
  have hpasses : (0 : ℚ) ≤ (span.epochs ⌈/⌉ s.horizon : ℕ) := Nat.cast_nonneg _
  cases span with
  | within slots => exact (s.rounded_grown amount slots).mono (by linarith)
  | across before behind =>
    have hfirst := rounded_left hs (s.rounded_grown amount before) 1
    refine (hfirst.add (s.rounded_grown amount behind)).mono ?_
    simp only [Span.epochs]
    linarith
  | beyond before behind more =>
    have hfirst := rounded_left hs (s.rounded_grown amount before) (more + 2)
    refine (((s.rounded_constant amount).add (s.rounded_grown amount behind)).add hfirst).mono ?_
    simp only [Span.epochs]
    linarith

/-- What is lost goes through the constant's product twice, the passes of a decay and the unit. -/
theorem rounded_lost (hs : s.Damped) (amount : BaseToken) (span : Span) :
    Rounded ((s.floorFigures amount).lost span) ((s.exactFigures amount).lost span)
      ((span.epochs ⌈/⌉ s.horizon : ℕ) + 3) := by
  have hpasses : (0 : ℚ) ≤ (span.epochs ⌈/⌉ s.horizon : ℕ) := Nat.cast_nonneg _
  cases span with
  | within | across => exact rounded_zero (by linarith)
  | beyond before behind more =>
    have hconstant := s.rounded_constant amount
    have hfewer : (more + 1) ⌈/⌉ s.horizon ≤ (more + 2) ⌈/⌉ s.horizon := by
      rw [Nat.ceilDiv_eq_add_pred_div, Nat.ceilDiv_eq_add_pred_div]
      exact Nat.div_le_div_right (by omega)
    have hpasses : (((more + 1) ⌈/⌉ s.horizon : ℕ) : ℚ) ≤ ((more + 2) ⌈/⌉ s.horizon : ℕ) :=
      Nat.cast_le.mpr hfewer
    refine ((rounded_left hs hconstant (more + 1)).add (hconstant.div s.unit_pos)).mono ?_
    simp only [Span.epochs]
    linarith

/-- **What is computed in naturals misses the case formula** by less than the passes of one decay and
three. -/
theorem abs_sub_value_lt (hs : s.Damped) {amount : BaseToken} {n : ℕ}
    (h : n + (s.floorFigures amount).takenOff span = ((s.floorFigures amount).added span).sum) :
    |(n : ℚ) - (s.exactFigures amount).value span| < (span.epochs ⌈/⌉ s.horizon : ℕ) + 3 := by
  rw [Figures.value_eq_gained_sub_lost]
  exact (rounded_gained hs amount span).abs_sub_lt (rounded_lost hs amount span)
    (Figures.add_lost_eq_gained (left_le hs) h)

end ManaSchedule

/-! ## Potential mana -/

/-- **Potential mana is off by less than the passes of its decay and three**, while slots times rate fit in
32 bits and all products in 64. -/
theorem Protocol.potential_rounding_lt (p : Protocol) {amount : BaseToken} {creation target : SlotIndex}
    {v : Mana} (hle : creation ≤ target)
    (hrate : ∀ slots ∈ (p.clock.span creation target).slots,
      slots.toNat * p.parameters.manaParameters.generationRate.toNat < 2 ^ 32)
    (hproducts : ∀ x ∈ (p.schedule.exactFigures amount).products (p.clock.span creation target),
      x < 2 ^ 64)
    (h : p.schedule.potential amount creation target = .ok v) :
    |(v.toNat : ℚ) - (p.schedule.exactFigures amount).value (p.clock.span creation target)|
      < ((p.clock.span creation target).epochs ⌈/⌉ p.schedule.horizon : ℕ) + 3 := by
  have hword : ∀ {x : ℕ} {r : ℚ}, Rounded x r 1 → r < 2 ^ 64 → x < 2 ^ 64 := fun hx hr => by
    exact_mod_cast hx.le.trans_lt hr
  obtain ⟨hconstant, hgrown⟩ := Figures.forall_mem_products_iff.mp hproducts
  have hfits := hconstant.imp_right (hword (p.schedule.rounded_constant amount))
  obtain ⟨hadded, htaken⟩ := Figures.reduced_eq hfits
  have htotal := totals_potential hle hrate fun slots hslots =>
    hword (p.schedule.rounded_grown amount slots) (hgrown slots hslots)
  rw [hadded, htaken] at htotal
  exact ManaSchedule.abs_sub_value_lt p.damped_schedule ((htotal.ok_iff v).mp h).2

/-- Ten epochs on the standard network, which its table reaches in one pass. -/
theorem potential_rounding_lt_sample :
    Protocol.standard.schedule.potential 1000000000 4000 85920 = .ok 622295611 ∧
      Protocol.standard.clock.span 4000 85920 = .beyond 4192 4000 8 ∧
      |((622295611 : ℕ) : ℚ) - (Protocol.standard.schedule.exactFigures 1000000000).value
        (.beyond 4192 4000 8)| < 4 := by
  have hpotential : Protocol.standard.schedule.potential 1000000000 4000 85920 = .ok 622295611 := by
    decide +kernel
  have hspan : Protocol.standard.clock.span 4000 85920 = .beyond 4192 4000 8 := by decide +kernel
  have hproducts : ∀ x ∈ (Protocol.standard.schedule.exactFigures 1000000000).products
      (Protocol.standard.clock.span 4000 85920), x < 2 ^ 64 := by
    refine Figures.forall_mem_products_iff.mpr ⟨.inr ?_, fun slots _ => ?_⟩
    · change ((1000000000 : ℕ) : ℚ) * ((2420916375 : ℕ) * (1 : ℕ)) / 2 ^ 25 < 2 ^ 64
      norm_num
    · have hslots : (slots.toNat : ℚ) < 2 ^ 32 := by exact_mod_cast slots.toNat_lt
      change ((1000000000 : ℕ) : ℚ) * (slots.toNat * (1 : ℕ)) / 2 ^ 17 < 2 ^ 64
      norm_num
      linarith
  have hrounding := Protocol.potential_rounding_lt .standard (by decide : (4000 : SlotIndex) ≤ 85920)
    (fun slots _ => rate_standard_lt slots) hproducts hpotential
  have hhorizon : Protocol.standard.schedule.horizon = 384 := by decide +kernel
  have hpasses : (((Span.beyond 4192 4000 8).epochs ⌈/⌉ 384 : ℕ) : ℚ) + 3 = 4 := by
    rw [Span.epochs, Nat.ceilDiv_eq_add_pred_div]
    norm_num
  have hv : (622295611 : Mana).toNat = 622295611 := rfl
  rw [hspan, hhorizon, hpasses, hv] at hrounding
  exact ⟨hpotential, hspan, hrounding⟩

end ManaWallet
