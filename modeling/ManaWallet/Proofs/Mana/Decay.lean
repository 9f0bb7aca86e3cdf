import ManaWallet.Protocol
import ManaWallet.Proofs.Arithmetic.Halves
import ManaWallet.Proofs.Parameters
import Mathlib.Algebra.Order.Floor.Div

/-!
# Proofs/Mana/Decay — decay as products rounded down

    value ──pass, the whole table──▸ … ──pass, to where the epochs end──▸ what is left

The halves that a value is carried in between the passes are digits throughout, as no factor is above
one; so decay is the same on naturals (`toNat_decay`), one pass for each stride through the table
(`left_eq_foldl`).  Every pass rounds down: it takes less than one unit more than the factor says
(`lt_pass_add`), and with a factor below one at least a part of the unit (`left_add_div_le`).
-/

namespace ManaWallet

namespace ManaSchedule

variable {s : ManaSchedule} {h : Halves}

/-! ## Decay of naturals -/

/-- The number of epochs that the table reaches. -/
def horizon (s : ManaSchedule) : ℕ := s.parameters.decayFactors.size

/-- What the decay factors are over. -/
def unit (s : ManaSchedule) : ℕ := 2 ^ s.parameters.decayFactorsExponent.toNat

/-- The decay factor of a number of epochs that the table reaches. -/
def factor (s : ManaSchedule) (epochs : ℕ) : ℕ :=
  (s.parameters.decayFactors.getD (epochs - 1) 0).toNat

/-- What is left of a number after epochs that the table reaches. -/
def pass (s : ManaSchedule) (epochs x : ℕ) : ℕ := x * s.factor epochs / s.unit

/-- What is left of a number after any number of epochs. -/
def left (s : ManaSchedule) (x epochs : ℕ) : ℕ :=
  if s.horizon = 0 then x
  else
    let whole := (s.pass s.horizon)^[epochs / s.horizon] x
    if epochs % s.horizon = 0 then whole else s.pass (epochs % s.horizon) whole

/-- A schedule on which no factor is above one. -/
def Damped (s : ManaSchedule) : Prop := ∀ epochs, s.factor epochs ≤ s.unit

theorem unit_pos (s : ManaSchedule) : 0 < s.unit := Nat.two_pow_pos _

@[simp]
theorem pass_zero (s : ManaSchedule) (epochs : ℕ) : s.pass epochs 0 = 0 := by
  rw [pass, Nat.zero_mul, Nat.zero_div]

/-- Nothing is left of nothing. -/
theorem left_zero (s : ManaSchedule) (epochs : ℕ) : s.left 0 epochs = 0 := by
  have hwhole : (s.pass s.horizon)^[epochs / s.horizon] 0 = 0 :=
    Function.iterate_fixed (s.pass_zero s.horizon) _
  rw [left]
  split
  · rfl
  · dsimp only
    rw [hwhole, pass_zero, ite_self]

/-- Without an epoch all is left. -/
theorem left_of_no_epochs (s : ManaSchedule) (x : ℕ) : s.left x 0 = x := by
  rw [left, Nat.zero_div, Nat.zero_mod, if_pos rfl, Function.iterate_zero_apply, ite_self]

/-- Epochs that the table reaches take one pass. -/
theorem left_of_le_horizon {epochs : ℕ} (hpos : 0 < epochs) (hle : epochs ≤ s.horizon) (x : ℕ) :
    s.left x epochs = s.pass epochs x := by
  rw [left, if_neg (by omega)]
  rcases hle.lt_or_eq with hlt | rfl
  · rw [Nat.div_eq_of_lt hlt, Nat.mod_eq_of_lt hlt, if_neg hpos.ne', Function.iterate_zero_apply]
  · rw [Nat.div_self hpos, Nat.mod_self, if_pos rfl, Function.iterate_one]

/-! ## Strides through the table -/

/-- The numbers of epochs that decay takes at a time: the whole table as often as it fits, then the
rest. -/
def strides (s : ManaSchedule) (epochs : ℕ) : List ℕ :=
  if s.horizon = 0 then []
  else
    List.replicate (epochs / s.horizon) s.horizon
      ++ if epochs % s.horizon = 0 then [] else [epochs % s.horizon]

/-- The next stride takes as many of the remaining epochs as the table reaches. -/
theorem strides_eq_cons {remaining : ℕ} (hhorizon : s.horizon ≠ 0) (hpos : 0 < remaining) :
    s.strides remaining
      = min remaining s.horizon :: s.strides (remaining - min remaining s.horizon) := by
  rw [strides, strides, if_neg hhorizon, if_neg hhorizon]
  rcases Nat.lt_or_ge remaining s.horizon with hlt | hge
  · rw [Nat.min_eq_left hlt.le, Nat.sub_self, Nat.div_eq_of_lt hlt, Nat.mod_eq_of_lt hlt,
      if_neg hpos.ne', Nat.zero_div, Nat.zero_mod, if_pos rfl]
    rfl
  · rw [Nat.min_eq_right hge, Nat.div_eq_sub_div (Nat.pos_of_ne_zero hhorizon) hge,
      List.replicate_succ, Nat.mod_eq_sub_mod hge, List.cons_append]

/-- A stride taken over and over. -/
theorem foldl_replicate {α : Type} (step : ℕ → α → α) (times epochs : ℕ) (x : α) :
    (List.replicate times epochs).foldl (fun y n => step n y) x = (step epochs)^[times] x := by
  induction times generalizing x with
  | zero => rfl
  | succ times ih => rw [List.replicate_succ, List.foldl_cons, ih, Function.iterate_succ_apply]

/-- What is done for each stride is done for the whole tables first, and then for the rest. -/
theorem foldl_strides {α : Type} (step : ℕ → α → α) (hhorizon : s.horizon ≠ 0) (epochs : ℕ) (x : α) :
    (s.strides epochs).foldl (fun y n => step n y) x
      = if epochs % s.horizon = 0 then (step s.horizon)^[epochs / s.horizon] x
        else step (epochs % s.horizon) ((step s.horizon)^[epochs / s.horizon] x) := by
  rw [strides, if_neg hhorizon, List.foldl_append, foldl_replicate]
  split <;> rfl

/-- **Decay is one pass for each stride.** -/
theorem left_eq_foldl (s : ManaSchedule) (x epochs : ℕ) :
    s.left x epochs = (s.strides epochs).foldl (fun y n => s.pass n y) x := by
  by_cases hhorizon : s.horizon = 0
  · rw [left, strides, if_pos hhorizon, if_pos hhorizon, List.foldl_nil]
  · rw [left, if_neg hhorizon, foldl_strides s.pass hhorizon]

/-- **The number of strides** is that of the tables that the epochs take up, the last one in part. -/
theorem length_strides (s : ManaSchedule) (epochs : ℕ) :
    (s.strides epochs).length = epochs ⌈/⌉ s.horizon := by
  rw [strides, Nat.ceilDiv_eq_add_pred_div]
  split
  · next hnone => rw [hnone, Nat.div_zero, List.length_nil]
  · next htable =>
    have hsplit := Nat.div_add_mod' epochs s.horizon
    have hrest := Nat.mod_lt epochs (Nat.pos_of_ne_zero htable)
    rw [List.length_append, List.length_replicate]
    symm
    split
    · apply Nat.div_eq_of_lt_le <;> simp only [List.length_nil, Nat.add_mul] <;> omega
    · apply Nat.div_eq_of_lt_le <;> simp only [List.length_singleton, Nat.add_mul] <;> omega

/-! ## Decay of words -/

theorem exponent_le_toNat (s : ManaSchedule) : s.parameters.decayFactorsExponent.toNat ≤ 32 :=
  UInt8.le_iff_toNat_le.mp s.exponent_le

/-- One pass keeps digits, and does what it does to naturals. -/
theorem digits_decayHalves (hs : s.Damped) (hh : h.Digits) (epochs : ℕ) :
    (s.decayHalves epochs h).Digits ∧ (s.decayHalves epochs h).nat = s.pass epochs h.nat := by
  have hfactor := (s.parameters.decayFactors.getD (epochs - 1) 0).toNat_lt
  exact ⟨hh.scaled hfactor s.exponent_le_toNat (hs epochs),
    hh.nat_scaled hfactor s.exponent_le_toNat⟩

/-- Any strides keep digits, and do what they do to naturals. -/
theorem digits_foldl (hs : s.Damped) (hh : h.Digits) (strides : List ℕ) :
    (strides.foldl (fun g n => s.decayHalves n g) h).Digits ∧
      (strides.foldl (fun g n => s.decayHalves n g) h).nat
        = strides.foldl (fun y n => s.pass n y) h.nat := by
  induction strides generalizing h with
  | nil => exact ⟨hh, rfl⟩
  | cons n rest ih =>
    obtain ⟨hdigits, hnat⟩ := digits_decayHalves hs hh n
    rw [List.foldl_cons, List.foldl_cons, ← hnat]
    exact ih hdigits

theorem repeat_eq_iterate {α : Type} (f : α → α) (times : ℕ) (x : α) : times.repeat f x = f^[times] x := by
  induction times with
  | zero => rfl
  | succ times ih =>
    rw [Function.iterate_succ_apply', ← ih]
    rfl

/-- **Decay is decay of naturals**: nothing is lost between the passes but what each rounds down. -/
theorem toNat_decay (hs : s.Damped) (value : Mana) (epochs : EpochIndex) :
    (s.decay value epochs).toNat = s.left value.toNat epochs.toNat := by
  by_cases hstill : value = 0 ∨ epochs = 0 ∨ s.horizon = 0
  · have hdecay : s.decay value epochs = value := if_pos hstill
    rw [hdecay]
    rcases hstill with rfl | rfl | hempty
    · exact (s.left_zero _).symm
    · exact (s.left_of_no_epochs _).symm
    · exact (if_pos hempty).symm
  · have hhorizon : s.horizon ≠ 0 := fun hempty => hstill (.inr (.inr hempty))
    have hdecay : s.decay value epochs = ((s.strides epochs.toNat).foldl
        (fun g n => s.decayHalves n g) (Halves.ofValue value)).toValue := by
      rw [foldl_strides s.decayHalves hhorizon, ← repeat_eq_iterate]
      exact if_neg hstill
    obtain ⟨hdigits, hnat⟩ := digits_foldl hs (Halves.digits_ofValue value) (s.strides epochs.toNat)
    rw [hdecay, hdigits.toNat_toValue, hnat, Halves.nat_ofValue, left_eq_foldl]

/-! ## How much a pass takes -/

/-- What a pass takes of one, over the unit. -/
def taken (s : ManaSchedule) (epochs : ℕ) : ℕ := s.unit - s.factor epochs

theorem pass_le (hs : s.Damped) (epochs x : ℕ) : s.pass epochs x ≤ x :=
  Nat.div_le_of_le_mul (by rw [Nat.mul_comm]; exact Nat.mul_le_mul_right x (hs epochs))

/-- A pass with a factor below one takes something. -/
theorem pass_lt {epochs x : ℕ} (hfactor : s.factor epochs < s.unit) (hx : 0 < x) :
    s.pass epochs x < x := by
  rw [pass, Nat.div_lt_iff_lt_mul s.unit_pos]
  exact Nat.mul_lt_mul_of_pos_left hfactor hx

/-- **A pass takes less than one unit more than its factor says.** -/
theorem lt_pass_add (hs : s.Damped) (epochs x : ℕ) :
    x * s.unit < s.pass epochs x * s.unit + x * s.taken epochs + s.unit := by
  have hsplit : x * s.unit = x * s.factor epochs + x * s.taken epochs := by
    rw [← Nat.mul_add, taken, Nat.add_sub_of_le (hs epochs)]
  have hfloor := Nat.lt_div_mul_add (a := x * s.factor epochs) s.unit_pos
  rw [hsplit, pass]
  omega

/-- Whole passes take something of what there is, and nothing more. -/
theorem iterate_pass_le (hs : s.Damped) (epochs times x : ℕ) : (s.pass epochs)^[times] x ≤ x := by
  induction times with
  | zero => exact Nat.le_refl x
  | succ times ih =>
    rw [Function.iterate_succ_apply']
    exact (pass_le hs epochs _).trans ih

/-- If a pass takes at most so much of any number up to `x`, passes take as often as much of `x`. -/
theorem le_iterate_pass_add (hs : s.Damped) {epochs x most : ℕ}
    (hmost : ∀ y ≤ x, y ≤ s.pass epochs y + most) (times : ℕ) :
    x ≤ (s.pass epochs)^[times] x + times * most := by
  induction times with
  | zero => exact Nat.le_add_right x _
  | succ times ih =>
    have hstep := hmost _ (iterate_pass_le hs epochs times x)
    rw [Function.iterate_succ_apply', Nat.succ_mul]
    omega

/-- Passes take something of what there is, and nothing more. -/
theorem foldl_pass_le (hs : s.Damped) (strides : List ℕ) (x : ℕ) :
    strides.foldl (fun y n => s.pass n y) x ≤ x := by
  induction strides generalizing x with
  | nil => exact Nat.le_refl x
  | cons n rest ih => exact (ih _).trans (pass_le hs n x)

/-- **Decay never gives mana.** -/
theorem left_le (hs : s.Damped) (x epochs : ℕ) : s.left x epochs ≤ x := by
  rw [left_eq_foldl]
  exact foldl_pass_le hs _ x

/-- Decay takes at least what its first pass takes. -/
theorem exists_left_le_pass (hs : s.Damped) (hhorizon : s.horizon ≠ 0) {epochs : ℕ}
    (hepochs : 0 < epochs) (x : ℕ) : ∃ n, s.left x epochs ≤ s.pass n x := by
  rw [left_eq_foldl, strides_eq_cons hhorizon hepochs, List.foldl_cons]
  exact ⟨_, foldl_pass_le hs _ _⟩

/-- **Decay with factors below one takes something**, as soon as an epoch begins. -/
theorem left_lt (hs : s.Damped) (hstrict : ∀ epochs, s.factor epochs < s.unit)
    (hhorizon : s.horizon ≠ 0) {x epochs : ℕ} (hx : 0 < x) (hepochs : 0 < epochs) :
    s.left x epochs < x := by
  obtain ⟨n, hle⟩ := exists_left_le_pass hs hhorizon hepochs x
  exact hle.trans_lt (pass_lt (hstrict n) hx)

/-- A pass with a factor below one leaves room for one part of the unit. -/
theorem pass_add_div_le {epochs : ℕ} (hfactor : s.factor epochs < s.unit) (x : ℕ) :
    s.pass epochs x + x / s.unit ≤ x := by
  calc s.pass epochs x + x / s.unit
      ≤ (x * s.factor epochs + x) / s.unit := Nat.div_add_div_le_add_div
    _ = x * (s.factor epochs + 1) / s.unit := by rw [Nat.mul_succ]
    _ ≤ x * s.unit / s.unit := Nat.div_le_div_right (Nat.mul_le_mul_left x hfactor)
    _ = x := Nat.mul_div_cancel x s.unit_pos

/-- **Decay with factors below one takes a part of the unit**, as soon as an epoch begins. -/
theorem left_add_div_le (hs : s.Damped) (hstrict : ∀ epochs, s.factor epochs < s.unit)
    (hhorizon : s.horizon ≠ 0) {epochs : ℕ} (hepochs : 0 < epochs) (x : ℕ) :
    s.left x epochs + x / s.unit ≤ x := by
  obtain ⟨n, hle⟩ := exists_left_le_pass hs hhorizon hepochs x
  have hpass := pass_add_div_le (hstrict n) x
  omega

/-- Where all entries of the table are below one, all factors are: past the table there is none. -/
theorem factor_lt (h : ∀ factor ∈ s.parameters.decayFactors, factor.toNat < s.unit) (epochs : ℕ) :
    s.factor epochs < s.unit := by
  rw [factor, Array.getD_eq_getD_getElem?]
  cases hfound : s.parameters.decayFactors[epochs - 1]? with
  | none => exact s.unit_pos
  | some factor => exact h factor (Array.mem_of_getElem? hfound)

end ManaSchedule

/-- **A network's schedule has no factor above one.** -/
theorem Protocol.damped_schedule (p : Protocol) : p.schedule.Damped := fun epochs =>
  (ProtocolParameters.validate_eq_ok_iff.mp p.valid).factor_le (epochs - 1)

end ManaWallet
