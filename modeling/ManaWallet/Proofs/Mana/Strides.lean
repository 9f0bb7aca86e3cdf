import ManaWallet.Proofs.Mana.Decay
import ManaWallet.Proofs.Standard

/-!
# Proofs/Mana/Strides — decay as a loop over its table

    halves ──stride──▸ halves ──stride──▸ … ──▸ halves ──join──▸ what is left
      ‖                  ‖                        ‖
    value ────pass───▸ number ───pass───▸ … ──▸ number

A stride takes as many of the remaining epochs as the table reaches, until none remain (`byStrides`).  The
loop carries halves, and they are digits of the number that the same strides leave, rounded down at each:
between the strides nothing is lost (`digits_foldl`), and so nothing where the halves are joined.  Whole
tables come first, so decay can be cut behind any number of them (`left_mul_add`).
-/

namespace ManaWallet

namespace ManaSchedule

variable {s : ManaSchedule}

/-! ## The loop -/

/-- Takes a stride of as many of the remaining epochs as the table reaches, over and over, until none
remain; without a table it takes none. -/
def byStrides {α : Type} (s : ManaSchedule) (stride : ℕ → α → α) (x : α) (remaining : ℕ) : α :=
  if s.horizon = 0 ∨ remaining = 0 then x
  else
    s.byStrides stride (stride (min remaining s.horizon) x) (remaining - min remaining s.horizon)
termination_by remaining
decreasing_by omega

theorem strides_eq_nil {remaining : ℕ} (h : s.horizon = 0 ∨ remaining = 0) :
    s.strides remaining = [] := by
  rcases h with hempty | rfl
  · rw [strides, if_pos hempty]
  · rw [strides, Nat.zero_div, Nat.zero_mod, if_pos rfl, List.replicate_zero, List.nil_append, ite_self]

/-- **The loop goes through the list of the strides.** -/
theorem byStrides_eq_foldl {α : Type} (stride : ℕ → α → α) (x : α) (remaining : ℕ) :
    s.byStrides stride x remaining = (s.strides remaining).foldl (fun y n => stride n y) x := by
  fun_induction byStrides s stride x remaining with
  | case1 x remaining hstop => rw [strides_eq_nil hstop, List.foldl_nil]
  | case2 x remaining hgo ih =>
    obtain ⟨hhorizon, hsome⟩ := not_or.mp hgo
    rw [strides_eq_cons hhorizon (Nat.pos_of_ne_zero hsome), List.foldl_cons, ih]

/-! ## Whole tables first -/

theorem strides_horizon_add (hhorizon : s.horizon ≠ 0) (more : ℕ) :
    s.strides (s.horizon + more) = s.horizon :: s.strides more := by
  rw [strides_eq_cons hhorizon (by omega), Nat.min_eq_right (Nat.le_add_right _ _),
    Nat.add_sub_cancel_left]

/-- Epochs behind whole tables have strides of their own. -/
theorem strides_mul_add (s : ManaSchedule) (whole rest : ℕ) :
    s.strides (whole * s.horizon + rest) = s.strides (whole * s.horizon) ++ s.strides rest := by
  by_cases hhorizon : s.horizon = 0
  · rw [strides_eq_nil (.inl hhorizon), strides_eq_nil (.inl hhorizon), strides_eq_nil (.inl hhorizon),
      List.append_nil]
  induction whole with
  | zero => rw [Nat.zero_mul, Nat.zero_add, strides_eq_nil (.inr rfl), List.nil_append]
  | succ whole ih =>
    have hnext : (whole + 1) * s.horizon = s.horizon + whole * s.horizon := by
      rw [Nat.succ_mul, Nat.add_comm]
    rw [hnext, Nat.add_assoc, strides_horizon_add hhorizon, strides_horizon_add hhorizon, ih,
      List.cons_append]

/-- **Decay can be cut behind whole tables.** -/
theorem left_mul_add (s : ManaSchedule) (x whole rest : ℕ) :
    s.left x (whole * s.horizon + rest) = s.left (s.left x (whole * s.horizon)) rest := by
  rw [left_eq_foldl, left_eq_foldl, left_eq_foldl, strides_mul_add, List.foldl_append]

/-- Words are cut like naturals, as far as the epochs are a word. -/
theorem decay_mul_add (hs : s.Damped) (value : Mana) {whole rest : ℕ}
    (hfits : whole * s.horizon + rest < 2 ^ 32) :
    s.decay value (.ofNat (whole * s.horizon + rest))
      = s.decay (s.decay value (.ofNat (whole * s.horizon))) (.ofNat rest) := by
  rw [← UInt64.toNat_inj, toNat_decay hs, toNat_decay hs, toNat_decay hs,
    UInt32.toNat_ofNat_of_lt' hfits, UInt32.toNat_ofNat_of_lt' (by omega : _ < 2 ^ 32),
    UInt32.toNat_ofNat_of_lt' (by omega : _ < 2 ^ 32), left_mul_add]

/-! ## Nothing is lost -/

/-- A table without a factor above one leaves none above one: past the table there is no factor. -/
theorem damped_of_table (h : ∀ factor ∈ s.parameters.decayFactors, factor.toNat ≤ s.unit) : s.Damped := by
  intro epochs
  rw [factor, Array.getD_eq_getD_getElem?]
  cases hfound : s.parameters.decayFactors[epochs - 1]? with
  | none => exact Nat.zero_le _
  | some factor => exact h factor (Array.mem_of_getElem? hfound)

/-- That decay is the loop over naturals, though it is run on halves. -/
structure DecaysExactly (s : ManaSchedule) (value : Mana) (epochs : EpochIndex) : Prop where
  /-- The loop leaves in words what it leaves in naturals, each stride a pass that rounds down. -/
  leaves : (s.decay value epochs).toNat = s.byStrides s.pass value.toNat epochs.toNat
  /-- What is returned are the halves that the loop ends with, joined. -/
  joins : s.decay value epochs
    = (s.byStrides s.decayHalves (Halves.ofValue value) epochs.toNat).toValue
  /-- After any number of strides the halves are below `2 ^ 32` and stand for what is left then. -/
  lossless : ∀ done,
    (((s.strides epochs.toNat).take done).foldl (fun h n => s.decayHalves n h)
        (Halves.ofValue value)).Digits ∧
      (((s.strides epochs.toNat).take done).foldl (fun h n => s.decayHalves n h)
          (Halves.ofValue value)).nat
        = ((s.strides epochs.toNat).take done).foldl (fun y n => s.pass n y) value.toNat

theorem decaysExactly (hs : s.Damped) (value : Mana) (epochs : EpochIndex) :
    s.DecaysExactly value epochs := by
  have hdigits := fun strides => digits_foldl hs (Halves.digits_ofValue value) strides
  rw [Halves.nat_ofValue] at hdigits
  have hleaves : (s.decay value epochs).toNat = s.byStrides s.pass value.toNat epochs.toNat := by
    rw [toNat_decay hs, left_eq_foldl, byStrides_eq_foldl]
  obtain ⟨hend, hnat⟩ := hdigits (s.strides epochs.toNat)
  refine ⟨hleaves, ?_, fun done => hdigits _⟩
  rw [← UInt64.toNat_inj, byStrides_eq_foldl, hend.toNat_toValue, hnat, hleaves, byStrides_eq_foldl]

/-- **Decay is exact and folds at the end of its table**, where no factor is above one: it is the loop
over naturals for every value and every number of epochs, and whole tables can be decayed first. -/
theorem decay_exact (htable : ∀ factor ∈ s.parameters.decayFactors, factor.toNat ≤ s.unit)
    (value : Mana) :
    (∀ epochs, s.DecaysExactly value epochs) ∧
      ∀ whole rest, whole * s.horizon + rest < 2 ^ 32 →
        s.decay value (.ofNat (whole * s.horizon + rest))
          = s.decay (s.decay value (.ofNat (whole * s.horizon))) (.ofNat rest) := by
  have hs := damped_of_table htable
  exact ⟨decaysExactly hs value, fun whole rest hfits => decay_mul_add hs value hfits⟩

end ManaSchedule

/-- No standard factor is above one, as the unit is more than a word of 32 bits holds. -/
theorem table_standard_le : ∀ factor ∈ Protocol.standard.schedule.parameters.decayFactors,
    factor.toNat ≤ Protocol.standard.schedule.unit :=
  fun factor _ => factor.toNat_lt.le

/-- The largest value over a thousand epochs, which take the standard table twice and 232 of it. -/
theorem decay_exact_sample :
    Protocol.standard.schedule.DecaysExactly 18446744073709551615 1000 ∧
      Protocol.standard.schedule.strides 1000 = [384, 384, 232] ∧
      Protocol.standard.schedule.decay 18446744073709551615 1000
        = Protocol.standard.schedule.decay
          (Protocol.standard.schedule.decay 18446744073709551615 768) 232 ∧
      Protocol.standard.schedule.decay 18446744073709551615 1000 = 7760130583813404433 := by
  have hhorizon : Protocol.standard.schedule.horizon = 384 := by decide +kernel
  obtain ⟨hexact, hcut⟩ := ManaSchedule.decay_exact table_standard_le 18446744073709551615
  have hfold := hcut 2 232 (by rw [hhorizon]; decide)
  rw [hhorizon] at hfold
  exact ⟨hexact 1000, by decide +kernel, hfold, by decide +kernel⟩

end ManaWallet
