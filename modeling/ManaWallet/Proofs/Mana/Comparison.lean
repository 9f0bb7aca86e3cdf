import ManaWallet.Proofs.Mana.Strides
import Mathlib.Order.Monotone.Basic

/-!
# Proofs/Mana/Comparison — decays side by side

| compared | one pass | all strides |
|----------|----------|-------------|
| two values | `pass_mono` | `left_mono` |
| two numbers of epochs | `pass_antitone` | `left_antitone` |
| a sum and its parts | `Splits.pass` | `Splits.left` |

More epochs take more strides, or a longer last one, so their strides are compared from the front: as long
as both numbers of epochs fill the table the strides agree, and where the smaller ends, the larger takes
at least as many epochs at once and a smaller factor.  Parts of a sum are rounded down each for itself, so
they lose at most one unit more than the sum at every stride, and a gap that is there does not grow.
-/

namespace ManaWallet

namespace ManaSchedule

variable {s : ManaSchedule}

/-! ## Two values -/

theorem pass_mono (s : ManaSchedule) (epochs : ℕ) : Monotone (s.pass epochs) := by
  intro x y hle
  exact Nat.div_le_div_right (Nat.mul_le_mul_right _ hle)

/-- **Of more mana more is left.** -/
theorem left_mono (s : ManaSchedule) (epochs : ℕ) : Monotone fun x => s.left x epochs := by
  intro x y hle
  change s.left x epochs ≤ s.left y epochs
  rw [left_eq_foldl, left_eq_foldl]
  exact List.foldl_monotone (fun n => s.pass_mono n) (s.strides epochs) hle

/-! ## Two numbers of epochs -/

/-- The factors of a table that falls fall with the epochs; past the table there is no factor. -/
theorem antitone_factor (hfalling : s.parameters.decayFactors.toList.Pairwise (· ≥ ·)) :
    Antitone s.factor := by
  intro m n hle
  rw [factor, factor, Array.getD_eq_getD_getElem?, Array.getD_eq_getD_getElem?]
  rcases Nat.lt_or_ge (n - 1) s.parameters.decayFactors.size with hlt | hge
  · have hlt' : m - 1 < s.parameters.decayFactors.size := by omega
    rw [Array.getElem?_eq_getElem hlt, Array.getElem?_eq_getElem hlt', Option.getD_some,
      Option.getD_some, ← UInt32.le_iff_toNat_le]
    rcases (Nat.sub_le_sub_right hle 1).eq_or_lt with hsame | hbefore
    · simp only [hsame]
      exact UInt32.le_refl _
    · exact List.pairwise_iff_getElem.mp hfalling (m - 1) (n - 1) hlt' hlt hbefore
  · rw [Array.getElem?_eq_none hge]
    exact Nat.zero_le _

theorem pass_antitone (hfalling : Antitone s.factor) (x : ℕ) : Antitone fun n => s.pass n x := by
  intro m n hle
  exact Nat.div_le_div_right (Nat.mul_le_mul_left x (hfalling hle))

/-- The first stride, and what is left of the rest. -/
theorem left_eq_left_pass {remaining : ℕ} (hhorizon : s.horizon ≠ 0) (hpos : 0 < remaining) (x : ℕ) :
    s.left x remaining
      = s.left (s.pass (min remaining s.horizon) x) (remaining - min remaining s.horizon) := by
  rw [left_eq_foldl, left_eq_foldl, strides_eq_cons hhorizon hpos, List.foldl_cons]

/-- **After more epochs less is left**, if the factors fall. -/
theorem left_antitone (hs : s.Damped) (hfalling : Antitone s.factor) (x : ℕ) :
    Antitone (s.left x) := by
  intro m n hle
  by_cases hhorizon : s.horizon = 0
  · rw [left, left, if_pos hhorizon, if_pos hhorizon]
  induction m using Nat.strong_induction_on generalizing n x with
  | _ m ih =>
    rcases Nat.eq_zero_or_pos m with rfl | hpos
    · rw [left_of_no_epochs]
      exact left_le hs x n
    rw [left_eq_left_pass hhorizon (hpos.trans_le hle), left_eq_left_pass hhorizon hpos]
    rcases Nat.le_total s.horizon m with hwhole | hpart
    · rw [Nat.min_eq_right hwhole, Nat.min_eq_right (hwhole.trans hle)]
      exact ih (m - s.horizon) (by omega) _ (Nat.sub_le_sub_right hle _)
    · -- the fewer epochs end with this stride, the others may go on
      rw [Nat.min_eq_left hpart, Nat.sub_self, left_of_no_epochs]
      exact (left_le hs _ _).trans (pass_antitone hfalling x (Nat.le_min.mpr ⟨hle, hpart⟩))

/-- **Decay is monotone in both arguments**, where the table falls from one at most: more mana leaves
more, and more epochs leave less, on either side of the end of the table and across it. -/
theorem decay_monotone (htable : ∀ factor ∈ s.parameters.decayFactors, factor.toNat ≤ s.unit)
    (hfalling : s.parameters.decayFactors.toList.Pairwise (· ≥ ·)) :
    (∀ (v w : Mana) (epochs : EpochIndex), v ≤ w → s.decay v epochs ≤ s.decay w epochs) ∧
      ∀ (v : Mana) (m n : EpochIndex), m ≤ n → s.decay v n ≤ s.decay v m ∧ s.decay v m ≤ v := by
  have hs := damped_of_table htable
  simp only [UInt64.le_iff_toNat_le, UInt32.le_iff_toNat_le, toNat_decay hs]
  constructor
  · intro v w epochs hle
    exact s.left_mono epochs.toNat hle
  · intro v m n hle
    exact ⟨left_antitone hs (antitone_factor hfalling) v.toNat hle, left_le hs _ _⟩

end ManaSchedule

theorem falling_yearlyDecayFactors : yearlyDecayFactors.toList.Pairwise (· ≥ ·) :=
  List.isChain_iff_pairwise.mp (by decide +kernel)

/-- The two largest values, and the epoch behind two whole tables. -/
theorem decay_monotone_sample :
    Protocol.standard.schedule.decay 18446744073709551614 1000
        ≤ Protocol.standard.schedule.decay 18446744073709551615 1000 ∧
      Protocol.standard.schedule.decay 1099511627777 769
        ≤ Protocol.standard.schedule.decay 1099511627777 768 ∧
      Protocol.standard.schedule.decay 1099511627777 768 = 565448289114 := by
  obtain ⟨hvalue, hepochs⟩ :=
    ManaSchedule.decay_monotone table_standard_le falling_yearlyDecayFactors
  obtain ⟨hless, -⟩ := hepochs 1099511627777 768 769 (by decide)
  exact ⟨hvalue 18446744073709551614 18446744073709551615 1000 (by decide), hless, by decide +kernel⟩

/-! ## A sum and its parts -/

/-- Two parts that make up a whole but for a gap. -/
structure Splits (whole a b gap : ℕ) : Prop where
  le : a + b ≤ whole
  le_add : whole ≤ a + b + gap

namespace Splits

variable {s : ManaSchedule} {whole a b gap : ℕ}

/-- **A pass widens the gap by one at most**: the parts lose less than a unit each, the whole nothing that
they keep. -/
theorem pass (hs : s.Damped) (h : Splits whole a b gap) (epochs : ℕ) :
    Splits (s.pass epochs whole) (s.pass epochs a) (s.pass epochs b) (gap + 1) where
  le :=
    calc s.pass epochs a + s.pass epochs b
        ≤ (a * s.factor epochs + b * s.factor epochs) / s.unit := Nat.div_add_div_le_add_div
      _ = s.pass epochs (a + b) := by rw [ManaSchedule.pass, Nat.add_mul]
      _ ≤ s.pass epochs whole := s.pass_mono epochs h.le
  le_add := by
    have hwhole : whole * s.factor epochs
        ≤ a * s.factor epochs + b * s.factor epochs + gap * s.unit :=
      calc whole * s.factor epochs
          ≤ (a + b + gap) * s.factor epochs := Nat.mul_le_mul_right _ h.le_add
        _ = a * s.factor epochs + b * s.factor epochs + gap * s.factor epochs := by
          rw [Nat.add_mul, Nat.add_mul]
        _ ≤ _ := Nat.add_le_add_left (Nat.mul_le_mul_left gap (hs epochs)) _
    have ha := Nat.lt_div_mul_add (a := a * s.factor epochs) s.unit_pos
    have hb := Nat.lt_div_mul_add (a := b * s.factor epochs) s.unit_pos
    refine Nat.lt_succ_iff.mp ((Nat.div_lt_iff_lt_mul s.unit_pos).mpr ?_)
    simp only [ManaSchedule.pass, Nat.succ_mul, Nat.add_mul]
    omega

theorem foldl (hs : s.Damped) (h : Splits whole a b gap) (strides : List ℕ) :
    Splits (strides.foldl (fun y n => s.pass n y) whole) (strides.foldl (fun y n => s.pass n y) a)
      (strides.foldl (fun y n => s.pass n y) b) (gap + strides.length) := by
  induction strides generalizing whole a b gap with
  | nil => exact h
  | cons n rest ih =>
    rw [List.length_cons, Nat.add_comm rest.length, ← Nat.add_assoc]
    exact ih (h.pass hs n)

/-- **Decay widens the gap by one for each stride at most.** -/
theorem left (hs : s.Damped) (h : Splits whole a b gap) (epochs : ℕ) :
    Splits (s.left whole epochs) (s.left a epochs) (s.left b epochs) (gap + epochs ⌈/⌉ s.horizon) := by
  rw [s.left_eq_foldl, s.left_eq_foldl, s.left_eq_foldl, ← s.length_strides]
  exact h.foldl hs _

end Splits

/-- **Splitting mana never beats decay**, and costs at most one unit for each stride. -/
theorem ManaSchedule.decay_add {s : ManaSchedule}
    (htable : ∀ factor ∈ s.parameters.decayFactors, factor.toNat ≤ s.unit) {a b : Mana}
    (hfits : a.toNat + b.toNat < 2 ^ 64) (epochs : EpochIndex) :
    (s.decay a epochs).toNat + (s.decay b epochs).toNat ≤ (s.decay (a + b) epochs).toNat ∧
      (s.decay (a + b) epochs).toNat
        ≤ (s.decay a epochs).toNat + (s.decay b epochs).toNat + epochs.toNat ⌈/⌉ s.horizon := by
  have hs := damped_of_table htable
  have hsum : (a + b).toNat = a.toNat + b.toNat := by
    rw [UInt64.toNat_add, Nat.mod_eq_of_lt hfits]
  have hwhole : Splits (a + b).toNat a.toNat b.toNat 0 := ⟨hsum.ge, hsum.le⟩
  obtain ⟨hle, hgap⟩ := hwhole.left hs epochs.toNat
  rw [Nat.zero_add] at hgap
  rw [toNat_decay hs, toNat_decay hs, toNat_decay hs]
  exact ⟨hle, hgap⟩

/-- Parts that lose all they can: a unit more than their sum at each of three strides. -/
theorem decay_add_sample :
    Protocol.standard.schedule.decay (3 + 46) 1000 = 20 ∧
      Protocol.standard.schedule.decay 3 1000 = 0 ∧
      Protocol.standard.schedule.decay 46 1000 = 17 ∧
      (Protocol.standard.schedule.decay (3 + 46) 1000).toNat
        ≤ (Protocol.standard.schedule.decay 3 1000).toNat
          + (Protocol.standard.schedule.decay 46 1000).toNat + 3 := by
  have hhorizon : Protocol.standard.schedule.horizon = 384 := by decide +kernel
  have hstrides : (1000 : EpochIndex).toNat ⌈/⌉ 384 = 3 := by
    rw [Nat.ceilDiv_eq_add_pred_div]
    rfl
  obtain ⟨-, hgap⟩ := ManaSchedule.decay_add table_standard_le
    (by decide : (3 : Mana).toNat + (46 : Mana).toNat < 2 ^ 64) 1000
  rw [hhorizon, hstrides] at hgap
  exact ⟨by decide +kernel, by decide +kernel, by decide +kernel, hgap⟩

end ManaWallet
