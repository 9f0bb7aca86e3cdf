import ManaWallet.Proofs.Mana.Potential
import ManaWallet.Proofs.Standard
import Mathlib.Tactic.Linarith
import Mathlib.Tactic.Ring

/-!
# Proofs/Mana/Undecayed — potential mana against generation without decay

    series constant ──decay──▸ what it loses ──≤──▸ what the tokens generate in the epochs between

The series stands for the epochs between by what its constant loses in them, and that is rounded up.  No
factor of the table takes more of the constant than generation gives (`covers_standard`), so rounding is
all that can exceed it: by one unit, and only where the table leaves less than a unit to spare, the
tokens are few and the slots before the first boundary generate nothing (`potential_le_undecayed`).
-/

namespace ManaWallet

namespace ManaSchedule

/-- The mana that tokens would generate from one slot to another if none of it decayed. -/
def undecayed (s : ManaSchedule) (amount : BaseToken) (creation target : SlotIndex) : ℕ :=
  amount.toNat * (target.toNat - creation.toNat) * s.parameters.generationRate.toNat
    / 2 ^ s.parameters.generationRateExponent.toNat

/-! ## What the constant loses -/

/-- What a table takes of the series' constant after some epochs, against what tokens generate in them.
A token generates a sixteenth of a unit in an epoch.  The constant for a token, `sum / 2 ^ 25`, loses
less: by `7 / 2 ^ 17` of a unit at least, by almost a whole unit from the 198th epoch on, and by three
units in the whole table. -/
structure Spares (sum epochs taken : ℕ) : Prop where
  early : sum * taken + 7 * 2 ^ 40 ≤ epochs * 2 ^ 53
  late : 198 ≤ epochs → sum * taken + 2 ^ 57 ≤ epochs * 2 ^ 53 + 2 ^ 40
  whole : epochs = 384 → sum * taken ≤ 21 * 2 ^ 57

instance (sum epochs taken : ℕ) : Decidable (Spares sum epochs taken) :=
  decidable_of_iff
    (sum * taken + 7 * 2 ^ 40 ≤ epochs * 2 ^ 53 ∧
      (198 ≤ epochs → sum * taken + 2 ^ 57 ≤ epochs * 2 ^ 53 + 2 ^ 40) ∧
      (epochs = 384 → sum * taken ≤ 21 * 2 ^ 57))
    ⟨fun h => ⟨h.1, h.2.1, h.2.2⟩, fun h => ⟨h.early, h.late, h.whole⟩⟩

/-- A table of 384 factors over `2 ^ 32` that takes less of the series' constant than tokens generate. -/
structure Covers (s : ManaSchedule) (sum : ℕ) : Prop where
  damped : s.Damped
  unit_eq : s.unit = 2 ^ 32
  horizon_eq : s.horizon = 384
  spares : ∀ epochs, 0 < epochs → epochs ≤ 384 → Spares sum epochs (s.taken epochs)

variable {s : ManaSchedule} {sum amount x epochs : ℕ}

/-- A pass over no more than the constant takes what the table takes of it for each token, rounded up. -/
theorem Covers.lt_pass_add (h : s.Covers sum) (hx : x * 2 ^ 25 ≤ amount * sum) (epochs : ℕ) :
    x * 2 ^ 57 < s.pass epochs x * 2 ^ 57 + amount * (sum * s.taken epochs) + 2 ^ 57 := by
  have hpass := ManaSchedule.lt_pass_add h.damped epochs x
  have htaken := Nat.mul_le_mul_right (s.taken epochs) hx
  rw [Nat.mul_right_comm, Nat.mul_assoc amount] at htaken
  rw [h.unit_eq] at hpass
  linarith only [hpass, htaken]

/-- Within the table the constant loses what its tokens generate, rounded up; and no more than that if
the tokens are many or the table leaves almost a unit to spare. -/
theorem Covers.loss_within_table (h : s.Covers sum) (hx : x * 2 ^ 25 ≤ amount * sum)
    (hpos : 0 < epochs) (hle : epochs ≤ 384) :
    16 * x ≤ 16 * s.left x epochs + amount * epochs + 15 ∧
      (2 ^ 14 ≤ amount ∨ 198 ≤ epochs →
        x * 2 ^ 17 ≤ s.left x epochs * 2 ^ 17 + amount * epochs * 2 ^ 13 + amount) := by
  have hspares := h.spares epochs hpos hle
  have hloss := h.lt_pass_add hx epochs
  have hearly := Nat.mul_le_mul_left amount hspares.early
  rw [Nat.mul_add, ← Nat.mul_assoc amount epochs] at hearly
  rw [left_of_le_horizon hpos (h.horizon_eq ▸ hle)]
  refine ⟨by omega, ?_⟩
  rintro (hmany | hlate)
  · linarith only [hloss, hearly, hmany]
  · have hlateSpare := Nat.mul_le_mul_left amount (hspares.late hlate)
    rw [Nat.mul_add, Nat.mul_add, ← Nat.mul_assoc amount epochs] at hlateSpare
    rcases Nat.eq_zero_or_pos amount with rfl | hsome
    · have hnone : x = 0 := by simpa using hx
      rw [hnone, Nat.zero_mul]
      exact Nat.zero_le _
    · linarith only [hloss, hlateSpare, hsome]

/-- Beyond the table the constant loses less than its tokens generate: every whole pass leaves three
units to spare for each. -/
theorem Covers.loss_beyond_table (h : s.Covers sum) (hx : x * 2 ^ 25 ≤ amount * sum)
    (hlt : 384 < epochs) : 16 * x ≤ 16 * s.left x epochs + amount * epochs := by
  have hwhole : ∀ y ≤ x, y ≤ s.pass 384 y + amount * 21 := by
    intro y hy
    have hloss := h.lt_pass_add ((Nat.mul_le_mul_right _ hy).trans hx) 384
    have hspare := Nat.mul_le_mul_left amount ((h.spares 384 (by decide) le_rfl).whole rfl)
    omega
  have hpasses := le_iterate_pass_add h.damped hwhole (epochs / 384)
  have hkept := iterate_pass_le h.damped 384 (epochs / 384) x
  have htimes : 1 ≤ epochs / 384 := (Nat.one_le_div_iff (by decide)).mpr hlt.le
  have hgained : amount * epochs = 384 * (epochs / 384 * amount) + amount * (epochs % 384) := by
    conv_lhs => rw [← Nat.div_add_mod epochs 384]
    ring
  have hspare : amount ≤ epochs / 384 * amount := Nat.le_mul_of_pos_left _ htimes
  have hused : epochs / 384 * (amount * 21) = 21 * (epochs / 384 * amount) := by ring
  rcases Nat.eq_zero_or_pos amount with rfl | hsome
  · omega
  rw [left, h.horizon_eq, if_neg (by decide)]
  dsimp only
  split
  · omega
  · next hrest =>
    have hle : epochs % 384 ≤ 384 := (Nat.mod_lt _ (by decide)).le
    have hloss := h.lt_pass_add ((Nat.mul_le_mul_right _ hkept).trans hx) (epochs % 384)
    have hearly := Nat.mul_le_mul_left amount (h.spares _ (Nat.pos_of_ne_zero hrest) hle).early
    rw [Nat.mul_add, ← Nat.mul_assoc amount (epochs % 384)] at hearly
    linarith only [hpasses, hgained, hspare, hused, hsome, hloss, hearly]

/-- **What the constant loses** in any number of epochs. -/
theorem Covers.loss_le (h : s.Covers sum) (hx : x * 2 ^ 25 ≤ amount * sum) (hpos : 0 < epochs) :
    16 * x ≤ 16 * s.left x epochs + amount * epochs + 15 ∧
      (2 ^ 14 ≤ amount ∨ 198 ≤ epochs →
        x * 2 ^ 17 ≤ s.left x epochs * 2 ^ 17 + amount * epochs * 2 ^ 13 + amount) := by
  rcases Nat.lt_or_ge 384 epochs with hlt | hle
  · have hloss := h.loss_beyond_table hx hlt
    exact ⟨by omega, fun _ => by linarith only [hloss, Nat.zero_le amount]⟩
  · exact h.loss_within_table hx hpos hle

end ManaSchedule

/-! ## The standard table -/

/-- The standard sum of the shares left, over `2 ^ 21`. -/
def standardSum : ℕ := 2420916375

/-- Every entry of the table, with the number of its epochs, leaves something to spare. -/
theorem spares_yearlyDecayFactors : ∀ entry ∈ yearlyDecayFactors.toList.zipIdx 1,
    ManaSchedule.Spares standardSum entry.2 (2 ^ 32 - entry.1.toNat) := by
  decide +kernel

theorem size_yearlyDecayFactors : yearlyDecayFactors.size = 384 := by decide +kernel

/-- The decay factor of some epochs is their entry of the table. -/
theorem exists_factor_standard {epochs : ℕ} (hpos : 0 < epochs) (hle : epochs ≤ 384) :
    ∃ factor : UInt32, (factor, epochs) ∈ yearlyDecayFactors.toList.zipIdx 1 ∧
      Protocol.standard.schedule.factor epochs = factor.toNat := by
  have hlt : epochs - 1 < yearlyDecayFactors.size := by
    rw [size_yearlyDecayFactors]
    omega
  refine ⟨yearlyDecayFactors[epochs - 1], ?_, ?_⟩
  · rw [List.mk_mem_zipIdx_iff_le_and_getElem?_sub, Array.getElem?_toList,
      Array.getElem?_eq_getElem hlt]
    exact ⟨hpos, rfl⟩
  · rw [Array.getElem_eq_getD 0]
    rfl

theorem unit_standard : Protocol.standard.schedule.unit = 2 ^ 32 := rfl

/-- **The standard table covers what tokens generate.** -/
theorem covers_standard : Protocol.standard.schedule.Covers standardSum where
  damped := Protocol.standard.damped_schedule
  unit_eq := unit_standard
  horizon_eq := size_yearlyDecayFactors
  spares epochs hpos hle := by
    obtain ⟨factor, hmem, hfactor⟩ := exists_factor_standard hpos hle
    rw [ManaSchedule.taken, unit_standard, hfactor]
    exact spares_yearlyDecayFactors _ hmem

/-! ## Potential mana -/

namespace ManaSchedule

/-- A schedule with the standard constants. -/
structure Standard (s : ManaSchedule) : Prop where
  covers : s.Covers standardSum
  factor_lt : ∀ epochs, s.factor epochs < s.unit
  rate_eq : s.parameters.generationRate.toNat = 1
  rateExponent_eq : s.parameters.generationRateExponent.toNat = 17
  sum_eq : s.parameters.decayFactorEpochsSum.toNat = standardSum
  sumExponent_eq : s.parameters.decayFactorEpochsSumExponent.toNat = 21
  epochExponent_eq : s.slotsPerEpochExponent.toNat = 13
  clock_bounded : s.clock.Bounded
  epochLength_eq : s.clock.epochLength = 2 ^ 13
  genesisSlot_eq : s.clock.genesisSlot = 0

variable {s : ManaSchedule} {amount : BaseToken} {creation target : SlotIndex} {v : Mana}

/-- No slot is before the genesis slot. -/
theorem Standard.genesisSlot_le (hs : s.Standard) (slot : SlotIndex) : s.clock.genesisSlot ≤ slot := by
  rw [hs.genesisSlot_eq, UInt32.le_iff_toNat_le]
  exact Nat.zero_le _

theorem Standard.undecayed_eq (hs : s.Standard) : s.undecayed amount creation target
    = amount.toNat * (target.toNat - creation.toNat) / 2 ^ 17 := by
  rw [undecayed, hs.rate_eq, hs.rateExponent_eq, Nat.mul_one]

/-- Tokens generate no more than their share of every slot. -/
theorem Standard.generate_le (hs : s.Standard) (amount : BaseToken) (slots : SlotIndex) :
    (s.generate amount slots).toNat * 2 ^ 17 ≤ amount.toNat * slots.toNat := by
  have hrate : slots.toNat * s.parameters.generationRate.toNat < 2 ^ 32 := by
    rw [hs.rate_eq, Nat.mul_one]
    exact slots.toNat_lt
  rw [toNat_generate amount hrate (by rw [hs.rateExponent_eq]; decide), hs.rate_eq,
    hs.rateExponent_eq, Nat.mul_one]
  exact (Nat.mul_le_mul_right _ (Nat.mod_le _ _)).trans (Nat.div_mul_le_self _ _)

/-- The series' constant is no more than the sum of the shares left makes it. -/
theorem Standard.seriesConstant_le (hs : s.Standard) (amount : BaseToken) {scale : UInt64}
    (hscale : s.seriesScale = .ok scale) :
    (s.seriesConstant amount scale).toNat * 2 ^ 25 ≤ amount.toNat * standardSum := by
  have hscale' : scale.toNat = 25 := by
    have hsum := seriesScale_eq_ok_iff.mp hscale
    rw [hs.sumExponent_eq, hs.rateExponent_eq, hs.epochExponent_eq] at hsum
    omega
  have hsum : s.parameters.decayFactorEpochsSum.toNat * s.parameters.generationRate.toNat
      < 2 ^ 32 := by
    rw [hs.rate_eq, Nat.mul_one]
    exact UInt32.toNat_lt _
  rw [toNat_seriesConstant amount hsum (hscale' ▸ by decide), hs.rate_eq, hs.sum_eq, hscale',
    Nat.mul_one]
  exact (Nat.mul_le_mul_right _ (Nat.mod_le _ _)).trans (Nat.div_mul_le_self _ _)

/-- Decay takes something of all mana there is. -/
theorem Standard.left_lt (hs : s.Standard) {mana : Mana} {epochs : ℕ} (hmana : mana ≠ 0)
    (hepochs : 0 < epochs) : s.left mana.toNat epochs < mana.toNat := by
  have hhorizon : s.horizon ≠ 0 := by
    rw [hs.covers.horizon_eq]
    decide
  have hsome : 0 < mana.toNat := Nat.pos_of_ne_zero fun hzero => hmana (UInt64.toNat_inj.mp hzero)
  exact ManaSchedule.left_lt hs.covers.damped hs.factor_lt hhorizon hsome hepochs

/-- Where rounding can make potential mana exceed generation without decay. -/
structure Exceeds (s : ManaSchedule) (amount : BaseToken) (creation target : SlotIndex) : Prop where
  amount_lt : amount.toNat < 2 ^ 14
  two_le : (s.clock.epochOf creation).toNat + 2 ≤ (s.clock.epochOf target).toNat
  lt_199 : (s.clock.epochOf target).toNat < (s.clock.epochOf creation).toNat + 199
  first_eq : s.generate amount (s.clock.slotsBeforeNextEpoch creation) = 0

/-- What tokens would generate from a slot to one of a later epoch, by the slots before the first
boundary, the whole epochs between and the slots behind the last boundary. -/
theorem Standard.slots_le (hs : s.Standard) (amount : BaseToken) {between : ℕ}
    (hepoch : (s.clock.epochOf target).toNat = (s.clock.epochOf creation).toNat + (between + 1)) :
    amount.toNat * (s.clock.slotsBeforeNextEpoch creation).toNat
        + amount.toNat * between * 2 ^ 13
        + amount.toNat * (s.clock.slotsSinceEpochStart target).toNat
      < (s.undecayed amount creation target + 1) * 2 ^ 17 := by
  have hslots := SlotClock.toNat_eq_add_slots hs.clock_bounded (hs.genesisSlot_le creation)
    (hs.genesisSlot_le target) hepoch
  rw [hs.epochLength_eq] at hslots
  rw [hs.undecayed_eq, hslots, Nat.add_sub_cancel_left, Nat.mul_add, Nat.mul_add,
    Nat.mul_assoc amount.toNat between]
  exact Nat.lt_mul_of_div_lt (Nat.lt_succ_self _) (by decide)

/-- The slots before the next epoch are one at least, as the slot itself is one of them. -/
theorem Standard.slotsBefore_pos (hs : s.Standard) (creation : SlotIndex) :
    0 < (s.clock.slotsBeforeNextEpoch creation).toNat := by
  rw [SlotClock.toNat_slotsBeforeNextEpoch hs.clock_bounded (hs.genesisSlot_le creation)]
  exact Nat.sub_pos_of_lt (Nat.mod_lt _ s.clock.epochLength_pos)

/-- Over one boundary, nothing exceeds generation without decay. -/
theorem Standard.potential_le_of_nextEpoch (hs : s.Standard)
    (hepoch : (s.clock.epochOf target).toNat = (s.clock.epochOf creation).toNat + 1)
    (hv : v.toNat = (s.decay (s.generate amount (s.clock.slotsBeforeNextEpoch creation)) 1).toNat
      + (s.generate amount (s.clock.slotsSinceEpochStart target)).toNat) :
    v.toNat ≤ s.undecayed amount creation target := by
  have hslots := hs.slots_le amount ((Nat.zero_add 1).symm ▸ hepoch)
  have hbefore := hs.generate_le amount (s.clock.slotsBeforeNextEpoch creation)
  have hbehind := hs.generate_le amount (s.clock.slotsSinceEpochStart target)
  have hdecay := left_le hs.covers.damped
    (s.generate amount (s.clock.slotsBeforeNextEpoch creation)).toNat 1
  rw [toNat_decay hs.covers.damped, UInt32.toNat_one] at hv
  omega

/-- Over two epochs and more, potential mana exceeds generation without decay by one unit at most, and
only where rounding can. -/
theorem Standard.potential_le_of_laterEpoch (hs : s.Standard) {between : ℕ} {scale : UInt64}
    (hscale : s.seriesScale = .ok scale) (hbetween : 0 < between)
    (hepoch : (s.clock.epochOf target).toNat = (s.clock.epochOf creation).toNat + (between + 1))
    (hv : v.toNat + s.left (s.seriesConstant amount scale).toNat between
      ≤ (s.seriesConstant amount scale).toNat
        + (s.generate amount (s.clock.slotsSinceEpochStart target)).toNat
        + s.left (s.generate amount (s.clock.slotsBeforeNextEpoch creation)).toNat (between + 1)) :
    v.toNat ≤ s.undecayed amount creation target + 1 ∧
      (s.undecayed amount creation target < v.toNat → s.Exceeds amount creation target) := by
  have hslots := hs.slots_le amount hepoch
  have hbefore := hs.generate_le amount (s.clock.slotsBeforeNextEpoch creation)
  have hbehind := hs.generate_le amount (s.clock.slotsSinceEpochStart target)
  obtain ⟨hloss, hexact⟩ := hs.covers.loss_le (hs.seriesConstant_le amount hscale) hbetween
  have hkept := left_le hs.covers.damped
    (s.generate amount (s.clock.slotsBeforeNextEpoch creation)).toNat (between + 1)
  refine ⟨by omega, fun hexceeds => ?_⟩
  -- what decay takes of the slots before the boundary makes up for the rounding
  have hfirst : s.generate amount (s.clock.slotsBeforeNextEpoch creation) = 0 := by
    by_contra hne
    have hless := hs.left_lt hne (by omega : 0 < between + 1)
    omega
  have hspared : ¬ (2 ^ 14 ≤ amount.toNat ∨ 198 ≤ between) := by
    intro hspare
    have hlost := hexact hspare
    have hslot := Nat.le_mul_of_pos_right amount.toNat (hs.slotsBefore_pos creation)
    rw [hfirst, UInt64.toNat_zero] at hkept hv
    omega
  obtain ⟨hfew, hearly⟩ := not_or.mp hspared
  exact ⟨by omega, by omega, by omega, hfirst⟩

/-- **Potential mana exceeds generation without decay by one unit at most**, and only where rounding
can. -/
theorem Standard.potential_le (hs : s.Standard) (h : s.potential amount creation target = .ok v) :
    v.toNat ≤ s.undecayed amount creation target + 1 ∧
      (s.undecayed amount creation target < v.toNat → s.Exceeds amount creation target) := by
  have hbelow : v.toNat ≤ s.undecayed amount creation target →
      v.toNat ≤ s.undecayed amount creation target + 1 ∧
        (s.undecayed amount creation target < v.toNat → s.Exceeds amount creation target) :=
    fun hle => ⟨hle.trans (Nat.le_succ _), fun hlt => absurd hlt (Nat.not_lt.mpr hle)⟩
  cases accrues_of_potential h with
  | sameEpoch hepoch hslots hv =>
    have hgenerated := hs.generate_le amount (target - creation)
    rw [UInt32.toNat_sub_of_le _ _ hslots, ← hv, ← Nat.le_div_iff_mul_le (by decide),
      ← hs.undecayed_eq] at hgenerated
    exact hbelow hgenerated
  | nextEpoch hepoch hv => exact hbelow (hs.potential_le_of_nextEpoch hepoch hv)
  | laterEpoch epochs hepochs hepoch scale hscale hv =>
    have hone : (1 : EpochIndex) ≤ epochs := by
      rw [UInt32.le_iff_toNat_le, UInt32.toNat_one]
      omega
    have hfewer := UInt32.toNat_sub_of_le _ _ hone
    rw [UInt32.toNat_one] at hfewer
    have hepochs' : epochs.toNat = (epochs - 1).toNat + 1 := by omega
    rw [toNat_decay hs.covers.damped, toNat_decay hs.covers.damped] at hv
    rw [hepochs'] at hv hepoch
    exact hs.potential_le_of_laterEpoch hscale (by omega) hepoch (by omega)

end ManaSchedule

/-- The standard schedule has the standard constants. -/
theorem standard_schedule : Protocol.standard.schedule.Standard where
  covers := covers_standard
  factor_lt _ := UInt32.toNat_lt _
  rate_eq := rfl
  rateExponent_eq := rfl
  sum_eq := rfl
  sumExponent_eq := rfl
  epochExponent_eq := rfl
  clock_bounded := (by decide : 13 < 32)
  epochLength_eq := rfl
  genesisSlot_eq := rfl

/-- **On the standard network decay lets mana grow beyond plain generation by one unit at most**, and by
that one only for fewer than `2 ^ 14` tokens, over 2 to 198 epochs, where the slots before the first
boundary generate nothing. -/
theorem potential_le_undecayed {amount : BaseToken} {creation target : SlotIndex} {v : Mana}
    (h : Protocol.standard.schedule.potential amount creation target = .ok v) :
    v.toNat ≤ Protocol.standard.schedule.undecayed amount creation target + 1 ∧
      (Protocol.standard.schedule.undecayed amount creation target < v.toNat →
        Protocol.standard.schedule.Exceeds amount creation target) :=
  standard_schedule.potential_le h

theorem potential_le_undecayed_sample :
    Protocol.standard.schedule.potential 1 0 16384 = .ok 1 ∧
      Protocol.standard.schedule.Exceeds 1 0 16384 := by
  have hpotential : Protocol.standard.schedule.potential 1 0 16384 = .ok 1 := by decide +kernel
  exact ⟨hpotential, (potential_le_undecayed hpotential).2 (by decide +kernel)⟩

/-- **A token that gains by decay**: over two epochs it has one unit of mana, and without decay it would
have none. -/
theorem token_exceeds_undecayed :
    1 ≤ Protocol.standard.parameters.tokenSupply ∧ (0 : SlotIndex) ≤ 16384 ∧
      Protocol.standard.schedule.potential 1 0 16384 = .ok 1 ∧
      Protocol.standard.schedule.undecayed 1 0 16384 = 0 := by
  decide +kernel

end ManaWallet
