import ManaWallet.Proofs.Mana.Boundary
import ManaWallet.Proofs.Mana.Generation
import ManaWallet.Proofs.Mana.Overflow

/-!
# Proofs/Mana/WithoutDecay — potential mana where no mana decays

| span | what there is without a table |
|------|-------------------------------|
| in one epoch | its slots |
| over one boundary | slots before it and slots behind it |
| over several | slots before the first and behind the last, less the constant over the unit |

The series stands for the whole epochs between by what its constant loses in them.  Without a table it
loses nothing, and so nothing of what tokens generate in whole epochs counts.  Up to the end of the next
epoch potential mana grows with the slots; beyond it, tokens keep what they had only as far as the slots
of the first and the last epoch make up for it (`potential_kept_iff`).
-/

namespace ManaWallet

/-! ## Spans that begin at one slot -/

namespace SlotClock

variable {c : SlotClock} {creation earlier later target : SlotIndex}

theorem span_of_sameEpoch (hsame : c.epochOf target = c.epochOf creation) :
    c.span creation target = .within (target - creation) := by
  simp only [span, hsame, Nat.sub_self]

theorem span_of_nextEpoch (hnext : (c.epochOf target).toNat = (c.epochOf creation).toNat + 1) :
    c.span creation target
      = .across (c.slotsBeforeNextEpoch creation) (c.slotsSinceEpochStart target) := by
  simp only [span, hnext, Nat.add_sub_cancel_left]

theorem span_of_laterEpoch {more : ℕ}
    (hlater : (c.epochOf target).toNat = (c.epochOf creation).toNat + (more + 2)) :
    c.span creation target
      = .beyond (c.slotsBeforeNextEpoch creation) (c.slotsSinceEpochStart target) more := by
  simp only [span, hlater, Nat.add_sub_cancel_left]

/-- A span has as many boundaries as epochs begin on it. -/
theorem epochs_span (c : SlotClock) (creation target : SlotIndex) :
    (c.span creation target).epochs = (c.epochOf target).toNat - (c.epochOf creation).toNat := by
  unfold span
  split <;> simp only [Span.epochs, *]

/-- Slots of one epoch end before the next one starts. -/
theorem toNat_sub_le_slotsBeforeNextEpoch (hc : c.Bounded) (hgenesis : c.genesisSlot ≤ creation)
    (hle : creation ≤ earlier) (hsame : c.epochOf earlier = c.epochOf creation)
    (hnext : (c.epochOf later).toNat = (c.epochOf creation).toNat + 1) :
    (earlier - creation).toNat ≤ (c.slotsBeforeNextEpoch creation).toNat := by
  have hcross : c.Crosses earlier (c.opening later) later :=
    crosses_opening hc (by rw [hsame, hnext]; exact Nat.lt_succ_self _)
  have hbefore := UInt32.lt_iff_toNat_lt.mp hcross.creation_lt
  have hopening : creation ≤ c.opening later := UInt32.le_trans hle (UInt32.le_of_lt hcross.creation_lt)
  rw [slotsBeforeNextEpoch_eq hgenesis hnext, UInt32.toNat_sub_of_le _ _ hle,
    UInt32.toNat_sub_of_le _ _ hopening]
  omega

/-- In one epoch, later slots have more slots behind its start. -/
theorem slotsSinceEpochStart_mono (hc : c.Bounded) (hgenesis : c.genesisSlot ≤ earlier)
    (hle : earlier ≤ later) (hsame : c.epochOf later = c.epochOf earlier) :
    (c.slotsSinceEpochStart earlier).toNat ≤ (c.slotsSinceEpochStart later).toNat := by
  have hlater := UInt32.le_trans hgenesis hle
  have hopening : c.opening later = c.opening earlier := congrArg c.epochStart hsame
  rw [slotsSinceEpochStart_eq hgenesis, slotsSinceEpochStart_eq hlater,
    UInt32.toNat_sub_of_le _ _ (opening_le hc hgenesis), UInt32.toNat_sub_of_le _ _ (opening_le hc hlater),
    hopening]
  exact Nat.sub_le_sub_right (UInt32.le_iff_toNat_le.mp hle) _

end SlotClock

/-! ## The case formula without a table -/

/-- What the slots of a span yield, as if none of it decayed; whole epochs between do not count. -/
def Figures.yielded (f : Figures ℕ) (span : Span) : ℕ := (span.slots.map f.grown).sum

/-- Where all is left, the constant loses nothing and only slots are added up. -/
theorem Figures.sum_added {f : Figures ℕ} (hkept : ∀ x epochs, f.left x epochs = x) (span : Span) :
    (f.added span).sum = f.yielded span := by
  cases span with
  | within slots => rfl
  | across before behind =>
    rw [added, hkept]
    rfl
  | beyond before behind more =>
    simp only [added, yielded, Span.slots, hkept, Nat.sub_self, List.map_cons, List.map_nil,
      List.sum_cons, List.sum_nil]
    omega

/-- Only for the whole epochs between something is taken off. -/
theorem Figures.takenOff_of_epochs_le {f : Figures ℕ} {span : Span} (hshort : span.epochs ≤ 1) :
    f.takenOff span = 0 := by
  cases span with
  | within | across => rfl
  | beyond => exact absurd hshort (by simp [Span.epochs])

namespace ManaSchedule

variable {s : ManaSchedule}

/-- Without a table all is left. -/
theorem left_of_no_table (hnone : s.parameters.decayFactors = #[]) (x epochs : ℕ) :
    s.left x epochs = x :=
  if_pos (Array.size_eq_zero_iff.mpr hnone)

/-- More slots yield more. -/
theorem grown_mono (s : ManaSchedule) (amount : BaseToken) {fewer more : SlotIndex}
    (hle : fewer.toNat ≤ more.toNat) :
    (s.floorFigures amount).grown fewer ≤ (s.floorFigures amount).grown more :=
  Nat.div_le_div_right (Nat.mul_le_mul_left _ (Nat.mul_le_mul_right _ hle))

/-- That nothing reaches `2 ^ 64` on a span: neither the product of a factor and the lower half of the
tokens, nor the whole product without a fraction of 32 bits, nor any figure of the case formula. -/
structure Unwrapped (s : ManaSchedule) (amount : BaseToken) (span : Span) : Prop where
  low_lt : ∀ slots ∈ span.slots, amount.toNat % 2 ^ 32 * s.slotsFactor slots < 2 ^ 64
  product_lt : ∀ slots ∈ span.slots, amount.toNat * s.slotsFactor slots / 2 ^ 32 < 2 ^ 64
  fits : (s.floorFigures amount).Fits span

end ManaSchedule

namespace Protocol

variable {p : Protocol} {amount : BaseToken} {creation earlier later target : SlotIndex}

/-- Where nothing reaches `2 ^ 64`, what the slots of a span yield is exact. -/
theorem toNat_generate_of_unwrapped {span : Span} (h : p.schedule.Unwrapped amount span) :
    ∀ slots ∈ span.slots,
      (p.schedule.generate amount slots).toNat = (p.schedule.floorFigures amount).grown slots := by
  intro slots hslots
  have hgrown := (Figures.forall_mem_products_iff.mp h.fits.products).2 slots hslots
  have hproduct := (Nat.div_lt_iff_lt_mul (Nat.two_pow_pos 32)).mp (h.product_lt slots hslots)
  exact (ManaSchedule.toNat_generate_eq_iff p.rateExponent_lt.le hgrown).mpr
    ⟨h.low_lt slots hslots, hproduct⟩

/-- **Potential mana without decay** is what the slots of the span yield, less what is taken off. -/
theorem potential_eq_ok_iff_of_no_table (hnone : p.parameters.manaParameters.decayFactors = #[])
    (hle : creation ≤ target) (h : p.schedule.Unwrapped amount (p.clock.span creation target)) (v : Mana) :
    p.schedule.potential amount creation target = .ok v ↔
      v.toNat + (p.schedule.floorFigures amount).takenOff (p.clock.span creation target)
        = (p.schedule.floorFigures amount).yielded (p.clock.span creation target) := by
  have hkept : ∀ x epochs, (p.schedule.floorFigures amount).left x epochs = x :=
    ManaSchedule.left_of_no_table hnone
  have htotal := totals_potential_of_exact hle (toNat_generate_of_unwrapped h)
  have hsum := h.fits.sum
  obtain ⟨hadded, htaken⟩ :=
    Figures.reduced_eq (Figures.forall_mem_products_iff.mp h.fits.products).1
  rw [hadded, htaken] at htotal
  rw [htotal.ok_iff, Figures.sum_added hkept]
  rw [Figures.sum_added hkept] at hsum
  exact and_iff_right hsum

/-- **Up to the end of the next epoch, more slots yield more.** -/
theorem yielded_mono (amount : BaseToken) (hgenesis : p.clock.genesisSlot ≤ creation)
    (hearlier : creation ≤ earlier) (hlater : earlier ≤ later)
    (hnear : (p.clock.epochOf later).toNat ≤ (p.clock.epochOf creation).toNat + 1) :
    (p.schedule.floorFigures amount).yielded (p.clock.span creation earlier)
      ≤ (p.schedule.floorFigures amount).yielded (p.clock.span creation later) := by
  have hc : p.clock.Bounded := p.bounded_clock
  have hgrown := fun {fewer more : SlotIndex} (hle : fewer.toNat ≤ more.toNat) =>
    p.schedule.grown_mono amount hle
  have hfirst := UInt32.le_iff_toNat_le.mp (SlotClock.epochOf_mono hc hearlier)
  have hsecond := UInt32.le_iff_toNat_le.mp (SlotClock.epochOf_mono hc hlater)
  -- the boundary, if there is one, lies before both slots, between them, or behind both
  rcases Nat.lt_or_ge (p.clock.epochOf creation).toNat (p.clock.epochOf later).toNat with hcrossed | hsame
  · have hnext : (p.clock.epochOf later).toNat = (p.clock.epochOf creation).toNat + 1 := by omega
    rw [SlotClock.span_of_nextEpoch hnext]
    rcases Nat.lt_or_ge (p.clock.epochOf creation).toNat (p.clock.epochOf earlier).toNat
      with hboth | hone
    · have hepoch : p.clock.epochOf later = p.clock.epochOf earlier :=
        UInt32.toNat_inj.mp (by omega)
      have hbehind := SlotClock.slotsSinceEpochStart_mono hc (UInt32.le_trans hgenesis hearlier)
        hlater hepoch
      rw [SlotClock.span_of_nextEpoch (hepoch ▸ hnext)]
      exact Nat.add_le_add_left (Nat.add_le_add_right (hgrown hbehind) 0) _
    · have hepoch : p.clock.epochOf earlier = p.clock.epochOf creation :=
        UInt32.toNat_inj.mp (by omega)
      have hbefore := SlotClock.toNat_sub_le_slotsBeforeNextEpoch hc hgenesis hearlier hepoch hnext
      rw [SlotClock.span_of_sameEpoch hepoch]
      exact Nat.add_le_add (hgrown hbefore) (Nat.zero_le _)
  · have hepoch : p.clock.epochOf earlier = p.clock.epochOf creation := UInt32.toNat_inj.mp (by omega)
    have hepoch' : p.clock.epochOf later = p.clock.epochOf creation := UInt32.toNat_inj.mp (by omega)
    have hslots : (earlier - creation).toNat ≤ (later - creation).toNat := by
      rw [UInt32.toNat_sub_of_le _ _ hearlier,
        UInt32.toNat_sub_of_le _ _ (UInt32.le_trans hearlier hlater)]
      exact Nat.sub_le_sub_right (UInt32.le_iff_toNat_le.mp hlater) _
    rw [SlotClock.span_of_sameEpoch hepoch, SlotClock.span_of_sameEpoch hepoch']
    exact Nat.add_le_add_right (hgrown hslots) 0

/-- There is as much without decay exactly if the slots of the span yield it, and what is taken off. -/
theorem exists_potential_ge_iff_of_no_table (hnone : p.parameters.manaParameters.decayFactors = #[])
    (hle : creation ≤ target) (h : p.schedule.Unwrapped amount (p.clock.span creation target)) (v : Mana) :
    (∃ w, p.schedule.potential amount creation target = .ok w ∧ v ≤ w) ↔
      v.toNat + (p.schedule.floorFigures amount).takenOff (p.clock.span creation target)
        ≤ (p.schedule.floorFigures amount).yielded (p.clock.span creation target) := by
  have hok := potential_eq_ok_iff_of_no_table hnone hle h
  constructor
  · rintro ⟨w, hw, hkept⟩
    rw [← (hok w).mp hw]
    exact Nat.add_le_add_right (UInt64.le_iff_toNat_le.mp hkept) _
  · intro hcovers
    have hsum := h.fits.sum
    rw [Figures.sum_added (ManaSchedule.left_of_no_table hnone)] at hsum
    obtain ⟨w, hw⟩ := exists_word ((Nat.sub_le _ _).trans_lt hsum)
    refine ⟨w, (hok w).mpr ?_, UInt64.le_iff_toNat_le.mpr ?_⟩
    · rw [hw, Nat.sub_add_cancel (le_of_add_le_right hcovers)]
    · rw [hw]
      exact Nat.le_sub_of_add_le hcovers

/-- **Tokens keep what they have, without decay**, up to the end of the next epoch; beyond it exactly if
the slots of the first and the last epoch yield as much, and what is taken off.  Nothing that tokens
generate in the whole epochs between counts. -/
theorem potential_kept_iff (p : Protocol) (hnone : p.parameters.manaParameters.decayFactors = #[])
    (amount : BaseToken) {creation earlier later : SlotIndex}
    (hgenesis : p.clock.genesisSlot ≤ creation) (hearlier : creation ≤ earlier) (hlater : earlier ≤ later)
    (hbefore : p.schedule.Unwrapped amount (p.clock.span creation earlier))
    (hbehind : p.schedule.Unwrapped amount (p.clock.span creation later))
    {v : Mana} (hv : p.schedule.potential amount creation earlier = .ok v) :
    ((∃ w, p.schedule.potential amount creation later = .ok w ∧ v ≤ w) ↔
      (p.clock.epochOf later).toNat ≤ (p.clock.epochOf creation).toNat + 1 ∨
        v.toNat + (p.schedule.floorFigures amount).constant / p.schedule.unit
          ≤ (p.schedule.floorFigures amount).grown (p.clock.slotsBeforeNextEpoch creation)
            + (p.schedule.floorFigures amount).grown (p.clock.slotsSinceEpochStart later)) ∧
      ((p.clock.epochOf creation).toNat + 1 < (p.clock.epochOf later).toNat →
        ∀ w, p.schedule.potential amount creation later = .ok w ↔
          w.toNat + (p.schedule.floorFigures amount).constant / p.schedule.unit
            = (p.schedule.floorFigures amount).grown (p.clock.slotsBeforeNextEpoch creation)
              + (p.schedule.floorFigures amount).grown (p.clock.slotsSinceEpochStart later)) := by
  have hle := UInt32.le_trans hearlier hlater
  have hok := potential_eq_ok_iff_of_no_table hnone hle hbehind
  rw [exists_potential_ge_iff_of_no_table hnone hle hbehind]
  rcases Nat.lt_or_ge ((p.clock.epochOf creation).toNat + 1) (p.clock.epochOf later).toNat
    with hfar | hnear
  · obtain ⟨more, hmore⟩ := Nat.exists_eq_add_of_lt hfar
    have hspan : p.clock.span creation later = .beyond (p.clock.slotsBeforeNextEpoch creation)
        (p.clock.slotsSinceEpochStart later) more := SlotClock.span_of_laterEpoch (by omega)
    rw [hspan] at hok ⊢
    exact ⟨(or_iff_right (Nat.not_le.mpr hfar)).symm, fun _ => hok⟩
  · have hyielded := yielded_mono amount hgenesis hearlier hlater hnear
    have hhad := (potential_eq_ok_iff_of_no_table hnone hearlier hbefore v).mp hv
    have hnothing : (p.schedule.floorFigures amount).takenOff (p.clock.span creation later) = 0 :=
      Figures.takenOff_of_epochs_le (by rw [SlotClock.epochs_span]; omega)
    exact ⟨iff_of_true (by omega) (.inl hnear), fun hfar => absurd hnear (Nat.not_le.mpr hfar)⟩

end Protocol

/-! ## A network without decay -/

/-- The network of the standard constants without a table of decay factors. -/
def Protocol.undecaying : Protocol where
  parameters := { manaParameters := { ManaParameters.standard with decayFactors := #[] } }
  valid := by decide +kernel
  exponent_le := UInt8.le_refl _

/-- There, `2 ^ 17` tokens generate one mana a slot. -/
theorem grown_undecaying (slots : SlotIndex) :
    (Protocol.undecaying.schedule.floorFigures 131072).grown slots = slots.toNat := by
  have hrate : (Protocol.undecaying.schedule.floorFigures 131072).grown slots
      = 2 ^ 17 * (slots.toNat * 1) / 2 ^ 17 := rfl
  rw [hrate, Nat.mul_div_cancel_left _ (Nat.two_pow_pos 17), Nat.mul_one]

/-- What the slots of a span yield there is far from `2 ^ 64`. -/
theorem yielded_undecaying_lt (span : Span) :
    (Protocol.undecaying.schedule.floorFigures 131072).yielded span < 2 ^ 64 := by
  cases span with
  | within slots =>
    have hslots := slots.toNat_lt
    simp only [Figures.yielded, Span.slots, List.map_cons, List.map_nil, List.sum_cons, List.sum_nil,
      grown_undecaying]
    omega
  | across before behind | beyond before behind =>
    have hbefore := before.toNat_lt
    have hbehind := behind.toNat_lt
    simp only [Figures.yielded, Span.slots, List.map_cons, List.map_nil, List.sum_cons, List.sum_nil,
      grown_undecaying]
    omega

/-- So many tokens are few enough for every span. -/
theorem unwrapped_undecaying (span : Span) :
    Protocol.undecaying.schedule.Unwrapped 131072 span := by
  have hfactor : ∀ slots, Protocol.undecaying.schedule.slotsFactor slots < 2 ^ 32 :=
    ManaSchedule.forall_slotsFactor_lt_iff.mpr (by decide)
  have htokens : (131072 : BaseToken).toNat = 131072 := rfl
  have hnone : Protocol.undecaying.schedule.parameters.decayFactors = #[] := rfl
  have hkept : ∀ x epochs, (Protocol.undecaying.schedule.floorFigures 131072).left x epochs = x :=
    ManaSchedule.left_of_no_table hnone
  refine ⟨fun slots _ => ?_, fun slots _ => ?_, Figures.forall_mem_products_iff.mpr
    ⟨.inr (by decide +kernel), fun slots _ => ?_⟩, ?_⟩
  · have hslots := hfactor slots
    rw [htokens]
    omega
  · have hslots := hfactor slots
    rw [htokens]
    omega
  · rw [grown_undecaying]
    exact slots.toNat_lt.trans (by decide)
  · rw [Figures.sum_added hkept]
    exact yielded_undecaying_lt span

/-- Tokens keep what they have from the end of an epoch to that of the next, lose it where another epoch
begins, and have as much again where the last slots make up for it. -/
theorem potential_kept_iff_sample :
    (∃ w, Protocol.undecaying.schedule.potential 131072 0 16383 = .ok w ∧ 8191 ≤ w) ∧
      (¬ ∃ w, Protocol.undecaying.schedule.potential 131072 0 16384 = .ok w ∧ 16383 ≤ w) ∧
      ∃ w, Protocol.undecaying.schedule.potential 131072 0 16385 = .ok w ∧ 8192 ≤ w := by
  have hgenesis : Protocol.undecaying.clock.genesisSlot ≤ 0 := UInt32.le_refl _
  obtain ⟨hnear, -⟩ := Protocol.undecaying.potential_kept_iff rfl 131072 hgenesis
    (by decide : (0 : SlotIndex) ≤ 8191) (by decide : (8191 : SlotIndex) ≤ 16383)
    (unwrapped_undecaying _) (unwrapped_undecaying _) (v := 8191) (by decide +kernel)
  obtain ⟨hlost, -⟩ := Protocol.undecaying.potential_kept_iff rfl 131072 hgenesis
    (by decide : (0 : SlotIndex) ≤ 16383) (by decide : (16383 : SlotIndex) ≤ 16384)
    (unwrapped_undecaying _) (unwrapped_undecaying _) (v := 16383) (by decide +kernel)
  obtain ⟨hcovered, -⟩ := Protocol.undecaying.potential_kept_iff rfl 131072 hgenesis
    (by decide : (0 : SlotIndex) ≤ 8192) (by decide : (8192 : SlotIndex) ≤ 16385)
    (unwrapped_undecaying _) (unwrapped_undecaying _) (v := 8192) (by decide +kernel)
  exact ⟨hnear.mpr (.inl (by decide +kernel)), fun h => absurd (hlost.mp h) (by decide +kernel),
    hcovered.mpr (.inr (by decide +kernel))⟩

/-- **An epoch that is lost**: of the tokens held since slot 0, all that the second epoch has generated is
gone where the third one begins, though nothing decays. -/
theorem whole_epoch_is_lost :
    Protocol.undecaying.parameters.manaParameters.decayFactors = #[] ∧
      Protocol.undecaying.schedule.Unwrapped 131072 (Protocol.undecaying.clock.span 0 16383) ∧
      Protocol.undecaying.schedule.Unwrapped 131072 (Protocol.undecaying.clock.span 0 16384) ∧
      Protocol.undecaying.schedule.potential 131072 0 16383 = .ok 16383 ∧
      Protocol.undecaying.schedule.potential 131072 0 16384 = .ok 8192 :=
  ⟨rfl, unwrapped_undecaying _, unwrapped_undecaying _, by decide +kernel, by decide +kernel⟩

end ManaWallet
