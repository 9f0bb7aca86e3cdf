import ManaWallet.Proofs.Mana.Formula
import ManaWallet.Proofs.Standard

/-!
# Proofs/Mana/Failure — the ways in which potential mana can fail

    creation after target ──▸ wrong epoch, or wrong slot in one epoch
    creation up to target ──▸ a result, or a sum that overflows

Epochs are in the order of their slots (`SlotClock.epochOf_mono`), so the order of the slots alone decides
which of the two it is.  Nothing is taken off that is not there: in one epoch at least, factors below one
take a part of the unit off the series' constant, which is all that is taken off in the end
(`left_add_div_le`).
-/

namespace ManaWallet

namespace ManaSchedule

variable {s : ManaSchedule} {amount : BaseToken} {creation target : SlotIndex}

/-- **A creation after the target is refused**: by its epoch if that is later, and else by its slot. -/
theorem potential_of_lt (hclock : s.clock.Bounded) (h : target < creation) :
    (s.clock.epochOf target < s.clock.epochOf creation ∧ s.potential amount creation target
        = .error (.wrongEpochIndex (s.clock.epochOf creation) (s.clock.epochOf target))) ∨
      (s.clock.epochOf target = s.clock.epochOf creation ∧
        s.potential amount creation target = .error (.wrongSlotIndex creation target)) := by
  have hepoch := SlotClock.epochOf_mono hclock (UInt32.le_of_lt h)
  unfold potential
  dsimp only
  rcases UInt32.lt_or_eq_of_le hepoch with hlater | hsame
  · exact .inl ⟨hlater, if_pos hlater⟩
  · rw [if_neg (hsame ▸ UInt32.lt_irrefl _), if_pos hsame, if_pos h]
    exact .inr ⟨hsame, rfl⟩

/-- **No more is taken off than is added up**, if all factors are below one. -/
theorem takenOff_le_sum (hs : s.Damped) (hstrict : ∀ epochs, s.factor epochs < s.unit)
    (hhorizon : s.horizon ≠ 0) {f : Figures ℕ} (hleft : f.left = s.left)
    (hunit : f.overUnit = fun x => x / s.unit) (span : Span) : f.takenOff span ≤ (f.added span).sum := by
  cases span with
  | within | across => exact Nat.zero_le _
  | beyond before behind more =>
    have hlost := left_add_div_le hs hstrict hhorizon (Nat.succ_pos more) f.constant
    have hseries : f.constant / s.unit ≤ f.constant - s.left f.constant (more + 1) :=
      Nat.le_sub_of_add_le' hlost
    rw [Figures.takenOff, Figures.added, hleft, hunit]
    exact hseries.trans (Nat.le_add_right _ _)

end ManaSchedule

namespace Protocol

/-- **Which errors potential mana can raise**, if the table has entries and all are below one.  A creation
after the target is always refused, by its epoch if that is later and else by its slot.  Otherwise there is
a result, unless a sum overflows. -/
theorem potential_fails_only_by_overflow (p : Protocol)
    (hsome : p.parameters.manaParameters.decayFactors ≠ #[])
    (hbelow : ∀ factor ∈ p.parameters.manaParameters.decayFactors,
      factor.toNat < 2 ^ p.parameters.manaParameters.decayFactorsExponent.toNat)
    (amount : BaseToken) (creation target : SlotIndex) :
    (target < creation →
      (p.clock.epochOf target < p.clock.epochOf creation ∧ p.schedule.potential amount creation target
          = .error (.wrongEpochIndex (p.clock.epochOf creation) (p.clock.epochOf target))) ∨
        (p.clock.epochOf target = p.clock.epochOf creation ∧
          p.schedule.potential amount creation target = .error (.wrongSlotIndex creation target))) ∧
    (creation ≤ target →
      (∃ v, p.schedule.potential amount creation target = .ok v) ∨
        ∃ lhs rhs, p.schedule.potential amount creation target
            = .error (.arithmetic (.additionOverflow lhs rhs)) ∧
          2 ^ 64 ≤ lhs.toNat + rhs.toNat) := by
  refine ⟨ManaSchedule.potential_of_lt p.bounded_clock, fun hle => ?_⟩
  have hhorizon : p.schedule.horizon ≠ 0 := fun hzero => hsome (Array.size_eq_zero_iff.mp hzero)
  obtain ⟨scale, hscale, -, -⟩ := p.exists_seriesScale
  have htotal := ManaSchedule.totals_potential p.damped_schedule p.bounded_clock hscale amount hle
  exact htotal.ok_or_overflow
    (ManaSchedule.takenOff_le_sum p.damped_schedule (ManaSchedule.factor_lt hbelow) hhorizon rfl rfl _)

end Protocol

/-- The largest amount whose constant fits, over ten thousand epochs and all but the last slot of another:
the series and the slots behind the last boundary add up to more than 64 bits. -/
theorem potential_fails_only_by_overflow_sample :
    Protocol.standard.schedule.potential 1 9 5 = .error (.wrongSlotIndex 9 5) ∧
      ∃ lhs rhs, Protocol.standard.schedule.potential 255675919265360885 0 81928191
          = .error (.arithmetic (.additionOverflow lhs rhs)) ∧
        2 ^ 64 ≤ lhs.toNat + rhs.toNat := by
  have hsome : Protocol.standard.parameters.manaParameters.decayFactors ≠ #[] := by decide +kernel
  have hbelow : ∀ factor ∈ Protocol.standard.parameters.manaParameters.decayFactors,
      factor.toNat < 2 ^ Protocol.standard.parameters.manaParameters.decayFactorsExponent.toNat :=
    fun factor _ => factor.toNat_lt
  obtain ⟨hback, -⟩ := Protocol.potential_fails_only_by_overflow .standard hsome hbelow 1 9 5
  obtain ⟨-, hforth⟩ := Protocol.potential_fails_only_by_overflow .standard hsome hbelow
    255675919265360885 0 81928191
  have hfails : ∀ v, Protocol.standard.schedule.potential 255675919265360885 0 81928191 ≠ .ok v := by
    intro v hv
    have hok : (Protocol.standard.schedule.potential 255675919265360885 0 81928191).toBool = true := by
      rw [hv]
      rfl
    exact absurd hok (by decide +kernel)
  have hepoch : ¬ Protocol.standard.clock.epochOf 5 < Protocol.standard.clock.epochOf 9 := by decide
  constructor
  · obtain ⟨hlater, -⟩ | ⟨-, hslot⟩ := hback (by decide)
    · exact absurd hlater hepoch
    · exact hslot
  · obtain ⟨v, hv⟩ | hover := hforth (by decide)
    · exact absurd hv (hfails v)
    · exact hover

end ManaWallet
