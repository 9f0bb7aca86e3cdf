import ManaWallet.Proofs.Mana.Failure
import ManaWallet.Proofs.Mana.Undecayed

/-!
# Proofs/Mana/Overflow — where potential mana wraps

| step | what does not fit in 64 bits |
|------|------------------------------|
| what slots yield | fits always, as no span counts more slots than an epoch has |
| the constant of the series | wraps, and nothing tells |
| sums | are refused |

So potential mana surfaces every overflow but that of the constant (`surfaces_iff`), which takes more tokens
than the standard network has and two epochs at least (`potential_surfaces_overflow`).
-/

namespace ManaWallet

/-- That a span's figures fit in 64 bits: the products, of which decay and the unit leave no more, and
their sum. -/
structure Figures.Fits (f : Figures ℕ) (span : Span) : Prop where
  products : ∀ x ∈ f.products span, x < 2 ^ 64
  sum : (f.added span).sum < 2 ^ 64

/-- That potential mana has no result but that of the case formula in naturals, and none where a figure of
that does not fit. -/
structure ManaSchedule.Surfaces (s : ManaSchedule) (amount : BaseToken) (creation target : SlotIndex) :
    Prop where
  exact : ∀ v, s.potential amount creation target = .ok v →
    v.toNat = (s.floorFigures amount).value (s.clock.span creation target)
  refused : ¬ (s.floorFigures amount).Fits (s.clock.span creation target) →
    ∃ e, s.potential amount creation target = .error e

/-! ## The constant that wraps -/

/-- A total is what is returned and what was taken off. -/
theorem Figures.value_eq {f : Figures ℕ} {span : Span} {n : ℕ}
    (h : n + f.takenOff span = (f.added span).sum) : n = f.value span :=
  Nat.eq_sub_of_add_eq h

namespace Protocol

variable {p : Protocol} {amount : BaseToken} {creation target : SlotIndex}

/-- No more is taken off than is added up, also where the constant wraps. -/
theorem takenOff_reduced_le (hstrict : ∀ epochs, p.schedule.factor epochs < p.schedule.unit)
    (hhorizon : p.schedule.horizon ≠ 0) (amount : BaseToken) (span : Span) :
    (p.schedule.floorFigures amount).reduced.takenOff span
      ≤ ((p.schedule.floorFigures amount).reduced.added span).sum :=
  ManaSchedule.takenOff_le_sum p.damped_schedule hstrict hhorizon rfl rfl span

/-- **Overflow is surfaced, unless the constant of the series wraps** and the sum fits all the same. -/
theorem surfaces_iff (hle : creation ≤ target)
    (hrate : ∀ slots ∈ (p.clock.span creation target).slots,
      slots.toNat * p.parameters.manaParameters.generationRate.toNat < 2 ^ 32)
    (hgrown : ∀ slots ∈ (p.clock.span creation target).slots,
      (p.schedule.floorFigures amount).grown slots < 2 ^ 64)
    (hstrict : ∀ epochs, p.schedule.factor epochs < p.schedule.unit)
    (hhorizon : p.schedule.horizon ≠ 0) :
    p.schedule.Surfaces amount creation target ↔
      ((p.clock.span creation target).epochs ≤ 1 ∨ (p.schedule.floorFigures amount).constant < 2 ^ 64) ∨
        2 ^ 64 ≤ ((p.schedule.floorFigures amount).reduced.added (p.clock.span creation target)).sum := by
  have htotal := totals_potential hle hrate hgrown
  constructor
  · intro hsurfaces
    rcases Nat.lt_or_ge _ (2 ^ 64) with hfits | hover
    · obtain ⟨v, hv⟩ := htotal.exists_ok (takenOff_reduced_le hstrict hhorizon amount _) hfits
      left
      by_contra hwide
      obtain ⟨e, he⟩ := hsurfaces.refused fun h =>
        hwide (Figures.forall_mem_products_iff.mp h.products).1
      rw [hv] at he
      nomatch he
    · exact .inr hover
  · rintro (hconstant | hover)
    · obtain ⟨hadded, htaken⟩ := Figures.reduced_eq hconstant
      rw [hadded, htaken] at htotal
      refine ⟨fun v hv => Figures.value_eq ((htotal.ok_iff v).mp hv).2, fun hwide => ?_⟩
      rcases Nat.lt_or_ge _ (2 ^ 64) with hfits | hover
      · exact absurd ⟨Figures.forall_mem_products_iff.mpr ⟨hconstant, hgrown⟩, hfits⟩ hwide
      · obtain ⟨lhs, rhs, heq, -⟩ := htotal.overflow hover
        exact ⟨_, heq⟩
    · obtain ⟨lhs, rhs, heq, -⟩ := htotal.overflow hover
      refine ⟨fun v hv => ?_, fun _ => ⟨_, heq⟩⟩
      rw [heq] at hv
      nomatch hv

end Protocol

/-! ## The standard network -/

/-- The most tokens whose constant of the series fits, on the standard network. -/
def mostTokens : ℕ := 255675919265360885

section Standard

variable {amount : BaseToken} {creation target : SlotIndex}

/-- The standard constant fits for these tokens and no more. -/
theorem constant_standard_lt_iff :
    (Protocol.standard.schedule.floorFigures amount).constant < 2 ^ 64 ↔ amount.toNat ≤ mostTokens := by
  change amount.toNat * (2420916375 * 1) / 2 ^ 25 < 2 ^ 64 ↔ amount.toNat ≤ 255675919265360885
  omega

/-- On the standard network an epoch is short enough for all tokens there could be. -/
theorem slots_standard_le (hle : creation ≤ target) :
    ∀ slots ∈ (Protocol.standard.clock.span creation target).slots, slots.toNat ≤ 2 ^ 13 :=
  SlotClock.slots_span_le Protocol.standard.bounded_clock (standard_schedule.genesisSlot_le creation) hle

theorem grown_standard_lt (amount : BaseToken) (hle : creation ≤ target) :
    ∀ slots ∈ (Protocol.standard.clock.span creation target).slots,
      (Protocol.standard.schedule.floorFigures amount).grown slots < 2 ^ 64 := by
  intro slots hslots
  have hshare := Nat.mul_le_mul_left amount.toNat (slots_standard_le hle slots hslots)
  have hamount := amount.toNat_lt
  change amount.toNat * (slots.toNat * 1) / 2 ^ 17 < 2 ^ 64
  rw [Nat.mul_one]
  omega

theorem horizon_standard_ne_zero : Protocol.standard.schedule.horizon ≠ 0 := by
  rw [covers_standard.horizon_eq]
  decide

/-- **On the standard network potential mana surfaces every overflow but that of the series' constant**,
which is reduced to a word before the sum is checked.  Over two epochs and more it is wrapped for more
tokens than `mostTokens`, and so never for those there are. -/
theorem potential_surfaces_overflow (hle : creation ≤ target) :
    Totals .arithmetic (Protocol.standard.schedule.potential amount creation target)
        ((Protocol.standard.schedule.floorFigures amount).reduced.added
          (Protocol.standard.clock.span creation target)).sum
        ((Protocol.standard.schedule.floorFigures amount).reduced.takenOff
          (Protocol.standard.clock.span creation target)) ∧
      (Protocol.standard.schedule.Surfaces amount creation target ↔
        ((Protocol.standard.clock.span creation target).epochs ≤ 1 ∨ amount.toNat ≤ mostTokens) ∨
          2 ^ 64 ≤ ((Protocol.standard.schedule.floorFigures amount).reduced.added
            (Protocol.standard.clock.span creation target)).sum) ∧
      (amount ≤ Protocol.standard.parameters.tokenSupply →
        Protocol.standard.schedule.Surfaces amount creation target) := by
  have hrate := fun slots (_ : slots ∈ (Protocol.standard.clock.span creation target).slots) =>
    rate_standard_lt slots
  have hgrown := grown_standard_lt amount hle
  have hiff := Protocol.surfaces_iff hle hrate hgrown standard_schedule.factor_lt
    horizon_standard_ne_zero
  rw [constant_standard_lt_iff] at hiff
  refine ⟨Protocol.totals_potential hle hrate hgrown, hiff, fun hsupply => hiff.mpr (.inl (.inr ?_))⟩
  exact (UInt64.le_iff_toNat_le.mp hsupply).trans (by decide +kernel)

/-- All tokens there are, and the last amount before the first that wraps. -/
theorem potential_surfaces_overflow_sample :
    Protocol.standard.schedule.Surfaces 1813620509061365 0 16384 ∧
      Protocol.standard.schedule.Surfaces 255675919265360885 0 16384 ∧
      ¬ Protocol.standard.schedule.Surfaces 255675919265360886 0 16384 := by
  have hle : (0 : SlotIndex) ≤ 16384 := by decide
  obtain ⟨-, -, hsupply⟩ := potential_surfaces_overflow hle
  obtain ⟨-, hlast, -⟩ := potential_surfaces_overflow hle
  obtain ⟨-, hfirst, -⟩ := potential_surfaces_overflow hle
  refine ⟨hsupply (by decide), hlast.mpr (.inl (.inr (by decide +kernel))), fun h => ?_⟩
  exact absurd (hfirst.mp h) (by decide +kernel)

/-- **A constant that wraps unseen**: over two epochs little more than half of the mana is returned. -/
theorem wrapped_constant_is_returned :
    Protocol.standard.schedule.potential 288230376151711744 0 16384 = .ok 20016121059943436 ∧
      (Protocol.standard.schedule.floorFigures 288230376151711744).value
          (Protocol.standard.clock.span 0 16384) = 35982034917598220 ∧
      ¬ (Protocol.standard.schedule.floorFigures 288230376151711744).Fits
          (Protocol.standard.clock.span 0 16384) ∧
      ¬ Protocol.standard.schedule.Surfaces 288230376151711744 0 16384 := by
  have hreturned : Protocol.standard.schedule.potential 288230376151711744 0 16384
      = .ok 20016121059943436 := by decide +kernel
  have hvalue : (Protocol.standard.schedule.floorFigures 288230376151711744).value
      (Protocol.standard.clock.span 0 16384) = 35982034917598220 := by decide +kernel
  have hwide : ¬ (Protocol.standard.schedule.floorFigures 288230376151711744).Fits
      (Protocol.standard.clock.span 0 16384) := fun h =>
    absurd h.products (by decide +kernel)
  refine ⟨hreturned, hvalue, hwide, fun h => ?_⟩
  exact absurd (hvalue ▸ h.exact _ hreturned) (by decide)

end Standard

end ManaWallet
