import ManaWallet.Proofs.Arithmetic.Totals
import ManaWallet.Proofs.Mana.Potential
import Mathlib.Algebra.BigOperators.Group.List.Basic
import Mathlib.Data.Rat.Defs

/-!
# Proofs/Mana/Formula — the case formula of potential mana, over any kind of numbers

| span | added up | taken off |
|------|----------|-----------|
| in one epoch | its slots | |
| over one boundary | slots before it, decayed once; slots behind it | |
| over several | constant less what decay leaves of it; slots behind; slots before, decayed | constant over the unit |

The formula has its figures as a parameter: what slots yield, the constant of the series, and how an amount
decays.  In words it is what potential mana adds up (`totals_potential`); in naturals every figure is
rounded down, in rationals none is.  The figures in words are those in naturals, less multiples of
`2 ^ 64` (`toNat_generate_eq_grown`, `constant_wordFigures`).
-/

namespace ManaWallet

/-! ## Spans -/

/-- The way from a slot to a later one, by the boundaries of epochs on it. -/
inductive Span where
  /-- Slots of one epoch. -/
  | within (slots : SlotIndex)
  /-- The slots before one boundary and those behind it. -/
  | across (before behind : SlotIndex)
  /-- The slots before the first boundary, those behind the last, and the whole epochs between beyond
  the one there is at least. -/
  | beyond (before behind : SlotIndex) (more : ℕ)
deriving DecidableEq

namespace Span

/-- The counts of slots that tokens are counted for. -/
def slots : Span → List SlotIndex
  | within slots => [slots]
  | across before behind | beyond before behind _ => [before, behind]

/-- The number of boundaries. -/
def epochs : Span → ℕ
  | within _ => 0
  | across _ _ => 1
  | beyond _ _ more => more + 2

end Span

/-- The span from a slot to a later one. -/
def SlotClock.span (c : SlotClock) (creation target : SlotIndex) : Span :=
  match (c.epochOf target).toNat - (c.epochOf creation).toNat with
  | 0 => .within (target - creation)
  | 1 => .across (c.slotsBeforeNextEpoch creation) (c.slotsSinceEpochStart target)
  | more + 2 => .beyond (c.slotsBeforeNextEpoch creation) (c.slotsSinceEpochStart target) more

/-- **No count of slots exceeds an epoch**, from the genesis slot on. -/
theorem SlotClock.slots_span_le {c : SlotClock} {creation target : SlotIndex} (hc : c.Bounded)
    (hgenesis : c.genesisSlot ≤ creation) (hle : creation ≤ target) :
    ∀ slots ∈ (c.span creation target).slots, slots.toNat ≤ c.epochLength := by
  have htarget := UInt32.le_trans hgenesis hle
  have hbefore : (c.slotsBeforeNextEpoch creation).toNat ≤ c.epochLength := by
    rw [toNat_slotsBeforeNextEpoch hc hgenesis]
    exact Nat.sub_le _ _
  have hbehind : (c.slotsSinceEpochStart target).toNat ≤ c.epochLength := by
    rw [toNat_slotsSinceEpochStart hc htarget]
    exact (Nat.mod_lt _ c.epochLength_pos).le
  unfold span
  split
  · next hsame =>
    have hepoch := UInt32.le_iff_toNat_le.mp (epochOf_mono hc hle)
    have hequal := UInt32.toNat_inj.mp (Nat.le_antisymm (Nat.le_of_sub_eq_zero hsame) hepoch)
    exact List.forall_mem_singleton.mpr (toNat_sub_lt_epochLength hc hgenesis hle hequal).le
  · exact List.forall_mem_cons.mpr ⟨hbefore, List.forall_mem_singleton.mpr hbehind⟩
  · exact List.forall_mem_cons.mpr ⟨hbefore, List.forall_mem_singleton.mpr hbehind⟩

/-! ## Figures -/

/-- The figures of the case formula, in some kind of numbers. -/
structure Figures (α : Type) where
  /-- What the tokens generate in a number of slots. -/
  grown : SlotIndex → α
  /-- The constant of the series. -/
  constant : α
  /-- What is left of an amount after a number of epochs. -/
  left : α → ℕ → α
  /-- An amount over the unit of the decay factors. -/
  overUnit : α → α

namespace Figures

variable {α : Type}

/-- The products that a span starts from. -/
def products (f : Figures α) : Span → List α
  | .within slots => [f.grown slots]
  | .across before behind => [f.grown before, f.grown behind]
  | .beyond before behind _ => [f.constant, f.grown before, f.grown behind]

/-- What is added up over a span. -/
def added [Sub α] (f : Figures α) : Span → List α
  | .within slots => [f.grown slots]
  | .across before behind => [f.left (f.grown before) 1, f.grown behind]
  | .beyond before behind more =>
    [f.constant - f.left f.constant (more + 1), f.grown behind, f.left (f.grown before) (more + 2)]

/-- What is taken off the sum. -/
def takenOff [Zero α] (f : Figures α) : Span → α
  | .within _ | .across _ _ => 0
  | .beyond _ _ _ => f.overUnit f.constant

/-- The case formula. -/
def value [AddZeroClass α] [Sub α] (f : Figures α) (span : Span) : α :=
  (f.added span).sum - f.takenOff span

/-- The products are what the counts of slots yield, and the constant where there are whole epochs
between. -/
theorem forall_mem_products_iff {f : Figures α} {span : Span} {fits : α → Prop} :
    (∀ x ∈ f.products span, fits x) ↔
      (span.epochs ≤ 1 ∨ fits f.constant) ∧ ∀ slots ∈ span.slots, fits (f.grown slots) := by
  cases span <;> simp [products, Span.slots, Span.epochs]

/-- What is added up depends on what the counts of slots of the span yield, and on no other. -/
theorem added_congr [Sub α] {f g : Figures α} {span : Span} (hconstant : f.constant = g.constant)
    (hleft : f.left = g.left) (hgrown : ∀ slots ∈ span.slots, f.grown slots = g.grown slots) :
    f.added span = g.added span := by
  cases span with
  | within slots => rw [added, added, hgrown slots List.mem_cons_self]
  | across before behind | beyond before behind more =>
    have hbehind := hgrown behind (List.mem_cons_of_mem before List.mem_cons_self)
    simp only [added, hconstant, hleft, hgrown before List.mem_cons_self, hbehind]

theorem takenOff_congr [Zero α] {f g : Figures α} (span : Span) (hconstant : f.constant = g.constant)
    (hunit : f.overUnit = g.overUnit) : f.takenOff span = g.takenOff span := by
  cases span with
  | within | across => rfl
  | beyond => rw [takenOff, takenOff, hconstant, hunit]

/-- Figures whose constant is a word, as multiplication leaves it. -/
def reduced (f : Figures ℕ) : Figures ℕ := { f with constant := f.constant % 2 ^ 64 }

/-- The constant counts only where there are whole epochs between. -/
theorem reduced_eq {f : Figures ℕ} {span : Span} (h : span.epochs ≤ 1 ∨ f.constant < 2 ^ 64) :
    f.reduced.added span = f.added span ∧ f.reduced.takenOff span = f.takenOff span := by
  rcases h with hshort | hfits
  · cases span with
    | within slots | across before behind => exact ⟨rfl, rfl⟩
    | beyond before behind more => exact absurd hshort (by simp [Span.epochs])
  · have heq : f.reduced = f := by rw [reduced, Nat.mod_eq_of_lt hfits]
    rw [heq]
    exact ⟨rfl, rfl⟩

end Figures

namespace ManaSchedule

variable {s : ManaSchedule}

/-- The exponent of the power of two below the series' constant. -/
def seriesExponent (s : ManaSchedule) : ℕ :=
  s.parameters.decayFactorEpochsSumExponent.toNat + s.parameters.generationRateExponent.toNat
    - s.slotsPerEpochExponent.toNat

/-- The figures that potential mana computes in words. -/
def wordFigures (s : ManaSchedule) (amount : BaseToken) (scale : UInt64) : Figures ℕ where
  grown slots := (s.generate amount slots).toNat
  constant := (s.seriesConstant amount scale).toNat
  left := s.left
  overUnit x := x / s.unit

/-- The figures in unbounded naturals, each rounded down.  What the formula subtracts is there, as decay
never gives and what it takes covers what is taken off (`left_le`, `left_add_div_le`). -/
def floorFigures (s : ManaSchedule) (amount : BaseToken) : Figures ℕ where
  grown slots := amount.toNat * (slots.toNat * s.parameters.generationRate.toNat)
    / 2 ^ s.parameters.generationRateExponent.toNat
  constant := amount.toNat
    * (s.parameters.decayFactorEpochsSum.toNat * s.parameters.generationRate.toNat)
    / 2 ^ s.seriesExponent
  left := s.left
  overUnit x := x / s.unit

/-! ## Potential mana in words -/

/-- A shift by the exponent of the decay factors is a division by their unit. -/
theorem toNat_shiftRight_exponent (s : ManaSchedule) (x : Mana) :
    (x >>> s.parameters.decayFactorsExponent.toUInt64).toNat = x.toNat / s.unit := by
  have hexponent := s.exponent_le_toNat
  rw [UInt64.toNat_shiftRight, UInt8.toNat_toUInt64, Nat.mod_eq_of_lt (by omega),
    Nat.shiftRight_eq_div_pow]
  rfl

variable {amount : BaseToken} {creation target : SlotIndex} {scale : UInt64}

/-- Over one boundary: what tokens generate before it, decayed once, and behind it is added up. -/
theorem totals_potentialOfNextEpoch (hs : s.Damped) :
    Totals .arithmetic (s.potentialOfNextEpoch amount creation target)
      ((s.wordFigures amount scale).added (.across (s.clock.slotsBeforeNextEpoch creation)
        (s.clock.slotsSinceEpochStart target))).sum 0 := by
  have hfirst : Totals id
      (.ok (s.decay (s.generate amount (s.clock.slotsBeforeNextEpoch creation)) 1)) _ 0 := totals_ok _
  have htotal := hfirst.add (s.generate amount (s.clock.slotsSinceEpochStart target))
  rw [toNat_decay hs] at htotal
  exact htotal.mapError

/-- What the constant loses and two further words are added up, and something is taken off. -/
theorem totals_of_series {constant kept : Mana} (behind first less : Mana) (hkept : kept ≤ constant) :
    Totals id (do
        let between ← checkedSub constant kept
        let total ← checkedAdd (← checkedAdd between behind) first
        checkedSub total less)
      (constant.toNat - kept.toNat + behind.toNat + first.toNat) less.toNat := by
  have hseries : checkedSub constant kept = .ok (constant - kept) := if_pos hkept
  have htotal := (((totals_ok (constant - kept)).add behind).add first).sub less
  rw [UInt64.toNat_sub_of_le _ _ hkept, bind_assoc] at htotal
  rw [hseries]
  exact htotal

/-- Over several boundaries: what the constant loses and what tokens generate behind and before is added
up, and a part of the unit of the constant is taken off. -/
theorem totals_potentialOfEpochs (hs : s.Damped) (hscale : s.seriesScale = .ok scale)
    {epochs : EpochIndex} {more : ℕ} (hepochs : epochs.toNat = more + 2) :
    Totals .arithmetic (s.potentialOfEpochs amount creation target epochs)
      ((s.wordFigures amount scale).added (.beyond (s.clock.slotsBeforeNextEpoch creation)
        (s.clock.slotsSinceEpochStart target) more)).sum
      ((s.seriesConstant amount scale).toNat / s.unit) := by
  have hfewer : (epochs - 1).toNat = more + 1 := by
    have hone : (1 : EpochIndex) ≤ epochs := by
      rw [UInt32.le_iff_toNat_le, UInt32.toNat_one]
      omega
    rw [UInt32.toNat_sub_of_le _ _ hone, hepochs, UInt32.toNat_one]
    rfl
  have hkept : s.decay (s.seriesConstant amount scale) (epochs - 1) ≤ s.seriesConstant amount scale := by
    rw [UInt64.le_iff_toNat_le, toNat_decay hs]
    exact left_le hs _ _
  have htotal := totals_of_series (s.generate amount (s.clock.slotsSinceEpochStart target))
    (s.decay (s.generate amount (s.clock.slotsBeforeNextEpoch creation)) epochs)
    (s.seriesConstant amount scale >>> s.parameters.decayFactorsExponent.toUInt64) hkept
  rw [toNat_decay hs, toNat_decay hs, hfewer, hepochs, toNat_shiftRight_exponent, Nat.add_assoc] at htotal
  rw [potentialOfEpochs, hscale]
  exact htotal.mapError

/-- **Potential mana is the case formula of its words**, checked step by step: it overflows exactly if the
sum does not fit in 64 bits, and what is taken off is checked once. -/
theorem totals_potential (hs : s.Damped) (hclock : s.clock.Bounded)
    (hscale : s.seriesScale = .ok scale) (amount : BaseToken) (hle : creation ≤ target) :
    Totals .arithmetic (s.potential amount creation target)
      ((s.wordFigures amount scale).added (s.clock.span creation target)).sum
      ((s.wordFigures amount scale).takenOff (s.clock.span creation target)) := by
  have hepoch := SlotClock.epochOf_mono hclock hle
  have hsub := UInt32.toNat_sub_of_le _ _ hepoch
  have hforward := UInt32.le_iff_toNat_le.mp hepoch
  have hother : ∀ {n}, (s.clock.epochOf target).toNat - (s.clock.epochOf creation).toNat = n + 1 →
      s.clock.epochOf target ≠ s.clock.epochOf creation := by
    intro n hdiff heq
    rw [heq, Nat.sub_self] at hdiff
    nomatch hdiff
  unfold potential SlotClock.span
  dsimp only
  rw [if_neg (UInt32.not_lt.mpr hepoch)]
  rcases hdiff : (s.clock.epochOf target).toNat - (s.clock.epochOf creation).toNat with _ | _ | more
  · have hsame : s.clock.epochOf target = s.clock.epochOf creation :=
      UInt32.toNat_inj.mp (by omega)
    rw [if_pos hsame, if_neg (UInt32.not_lt.mpr hle)]
    exact totals_ok _
  · have hone : s.clock.epochOf target - s.clock.epochOf creation = 1 := by
      rw [← UInt32.toNat_inj, hsub, hdiff]
      rfl
    rw [if_neg (hother hdiff), if_pos hone]
    exact totals_potentialOfNextEpoch hs
  · have hmany : s.clock.epochOf target - s.clock.epochOf creation ≠ 1 := by
      intro hone
      rw [hone, hdiff] at hsub
      nomatch hsub
    rw [if_neg (hother hdiff), if_neg hmany]
    exact totals_potentialOfEpochs hs hscale (hsub.trans hdiff)

end ManaSchedule

/-! ## Words against naturals -/

namespace Protocol

variable {p : Protocol} {amount : BaseToken} {creation target : SlotIndex} {scale : UInt64}
  {span : Span}

theorem fit (p : Protocol) : p.parameters.Fit := ProtocolParameters.validate_eq_ok_iff.mp p.valid

/-- On a network no epoch is longer than the slots there are. -/
theorem bounded_clock (p : Protocol) : p.schedule.clock.Bounded :=
  UInt8.lt_iff_toNat_lt.mp p.fit.epochExponent_lt

/-- On a network one shift reaches the scale of what slots yield. -/
theorem rateExponent_lt (p : Protocol) :
    p.parameters.manaParameters.generationRateExponent.toNat < 64 :=
  UInt8.lt_iff_toNat_lt.mp p.fit.rateExponent_lt

/-- On a network the series' constant has a scale that two shifts reach. -/
theorem exists_seriesScale (p : Protocol) : ∃ scale, p.schedule.seriesScale = .ok scale ∧
    scale.toNat = p.schedule.seriesExponent ∧ scale.toNat < 96 := by
  have hle : p.schedule.seriesExponent ≤ p.parameters.manaParameters.decayFactorEpochsSumExponent.toNat
      + p.parameters.manaParameters.generationRateExponent.toNat := Nat.sub_le _ _
  have hlt := hle.trans_lt p.fit.scale_lt
  obtain ⟨scale, hscale⟩ := exists_word (hlt.trans (by decide : 96 < 2 ^ 64))
  refine ⟨scale, ManaSchedule.seriesScale_eq_ok_iff.mpr ?_, hscale, hscale ▸ hlt⟩
  rw [hscale]
  exact Nat.sub_add_cancel p.fit.scale_nonneg

/-- **The constant in words** is the one in naturals, as far as it fits. -/
theorem constant_wordFigures (amount : BaseToken) (hscale : scale.toNat = p.schedule.seriesExponent)
    (hlt : scale.toNat < 96) : (p.schedule.wordFigures amount scale).constant
      = (p.schedule.floorFigures amount).reduced.constant := by
  rw [ManaSchedule.wordFigures, ManaSchedule.toNat_seriesConstant amount p.fit.sum_lt hlt, hscale]
  rfl

/-- **What slots yield in words** is what they yield in naturals, where both factor and product fit. -/
theorem toNat_generate_eq_grown {slots : SlotIndex}
    (hrate : slots.toNat * p.parameters.manaParameters.generationRate.toNat < 2 ^ 32)
    (hfits : (p.schedule.floorFigures amount).grown slots < 2 ^ 64) :
    (p.schedule.generate amount slots).toNat = (p.schedule.floorFigures amount).grown slots := by
  have hexponent : p.parameters.manaParameters.generationRateExponent.toNat < 96 :=
    p.rateExponent_lt.trans (by decide)
  exact (ManaSchedule.toNat_generate amount hrate hexponent).trans (Nat.mod_eq_of_lt hfits)

/-- **Potential mana is the case formula in naturals**, with its constant reduced to a word, where what
slots yield is exact. -/
theorem totals_potential_of_exact (hle : creation ≤ target)
    (hexact : ∀ slots ∈ (p.clock.span creation target).slots,
      (p.schedule.generate amount slots).toNat = (p.schedule.floorFigures amount).grown slots) :
    Totals .arithmetic (p.schedule.potential amount creation target)
      ((p.schedule.floorFigures amount).reduced.added (p.clock.span creation target)).sum
      ((p.schedule.floorFigures amount).reduced.takenOff (p.clock.span creation target)) := by
  obtain ⟨scale, hscale, hexponent, hlt⟩ := p.exists_seriesScale
  have hconstant := constant_wordFigures amount hexponent hlt
  rw [← Figures.added_congr hconstant rfl hexact, ← Figures.takenOff_congr _ hconstant rfl]
  exact ManaSchedule.totals_potential p.damped_schedule p.bounded_clock hscale amount hle

/-- What slots yield is exact where all of it fits. -/
theorem totals_potential (hle : creation ≤ target)
    (hrate : ∀ slots ∈ (p.clock.span creation target).slots,
      slots.toNat * p.parameters.manaParameters.generationRate.toNat < 2 ^ 32)
    (hfits : ∀ slots ∈ (p.clock.span creation target).slots,
      (p.schedule.floorFigures amount).grown slots < 2 ^ 64) :
    Totals .arithmetic (p.schedule.potential amount creation target)
      ((p.schedule.floorFigures amount).reduced.added (p.clock.span creation target)).sum
      ((p.schedule.floorFigures amount).reduced.takenOff (p.clock.span creation target)) :=
  totals_potential_of_exact hle fun slots hslots =>
    toNat_generate_eq_grown (hrate slots hslots) (hfits slots hslots)

end Protocol

end ManaWallet
