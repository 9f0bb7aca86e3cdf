import ManaWallet.Arithmetic.Halves
import Mathlib.Tactic.Ring

/-!
# Proofs/Arithmetic/Halves — products of split values are exact

    value ──split──▸ two digits to the base 2 ^ 32 ──scaled──▸ digits of ⌊value · factor / 2 ^ scale⌋

A factor of 32 bits keeps all sums and products of `Halves.scaled` below `2 ^ 64`, so none of them wraps
(`Halves.nat_scaled`).  Only joining digits of which the upper has outgrown its half loses anything.
-/

namespace ManaWallet

namespace Halves

/-- The number that the halves stand for. -/
def nat (h : Halves) : ℕ := h.high.toNat * 2 ^ 32 + h.low.toNat

/-- Halves that are digits to the base `2 ^ 32`. -/
structure Digits (h : Halves) : Prop where
  high_lt : h.high.toNat < 2 ^ 32
  low_lt : h.low.toNat < 2 ^ 32

/-! ## Masks and shifts as division -/

theorem toNat_and_lowMask (x : UInt64) : (x &&& lowMask).toNat = x.toNat % 2 ^ 32 :=
  Nat.and_two_pow_sub_one_eq_mod x.toNat 32

theorem toNat_shiftRight_32 (x : UInt64) : (x >>> 32).toNat = x.toNat / 2 ^ 32 := by
  rw [UInt64.toNat_shiftRight, Nat.shiftRight_eq_div_pow]
  rfl

/-- A shift by less than a word is a division. -/
theorem toNat_shiftRight_of_lt (x : UInt64) {distance : UInt32} (h : distance.toNat < 64) :
    (x >>> distance.toUInt64).toNat = x.toNat / 2 ^ distance.toNat := by
  rw [UInt64.toNat_shiftRight, Nat.shiftRight_eq_div_pow, UInt32.toNat_toUInt64, Nat.mod_eq_of_lt h]

/-- A single bit, shifted by a scale. -/
theorem toNat_one_shiftLeft {scale : UInt32} (h : scale.toNat ≤ 32) :
    ((1 : UInt64) <<< scale.toUInt64).toNat = 2 ^ scale.toNat := by
  have hpow : 2 ^ scale.toNat ≤ 2 ^ 32 := Nat.pow_le_pow_right Nat.two_pos h
  rw [UInt64.toNat_shiftLeft, UInt32.toNat_toUInt64, Nat.mod_eq_of_lt (by omega : scale.toNat < 64),
    Nat.shiftLeft_eq, UInt64.toNat_one, Nat.one_mul, Nat.mod_eq_of_lt (by omega)]

theorem one_le_one_shiftLeft {scale : UInt32} (h : scale.toNat ≤ 32) :
    (1 : UInt64) ≤ 1 <<< scale.toUInt64 := by
  rw [UInt64.le_iff_toNat_le, toNat_one_shiftLeft h]
  exact Nat.one_le_two_pow

/-- The bits below a scale are a remainder. -/
theorem toNat_and_scaleMask (x : UInt64) {scale : UInt32} (h : scale.toNat ≤ 32) :
    (x &&& ((1 <<< scale.toUInt64) - 1)).toNat = x.toNat % 2 ^ scale.toNat := by
  rw [UInt64.toNat_and, UInt64.toNat_sub_of_le _ _ (one_le_one_shiftLeft h), toNat_one_shiftLeft h]
  exact Nat.and_two_pow_sub_one_eq_mod x.toNat scale.toNat

/-- What a scale leaves of a half's bits. -/
theorem toNat_sub_scale {scale : UInt32} (h : scale.toNat ≤ 32) :
    (32 - scale).toNat = 32 - scale.toNat :=
  UInt32.toNat_sub_of_le _ _ (UInt32.le_iff_toNat_le.mpr h)

/-! ## Splitting and joining -/

theorem toNat_high_ofValue (value : UInt64) : (ofValue value).high.toNat = value.toNat / 2 ^ 32 :=
  toNat_shiftRight_32 value

theorem toNat_low_ofValue (value : UInt64) : (ofValue value).low.toNat = value.toNat % 2 ^ 32 :=
  toNat_and_lowMask value

/-- **Splitting a value** loses nothing. -/
theorem nat_ofValue (value : UInt64) : (ofValue value).nat = value.toNat := by
  rw [nat, toNat_high_ofValue, toNat_low_ofValue, Nat.div_add_mod']

theorem digits_ofValue (value : UInt64) : (ofValue value).Digits := by
  have hvalue := value.toNat_lt
  constructor
  · rw [toNat_high_ofValue]
    omega
  · rw [toNat_low_ofValue]
    exact Nat.mod_lt _ (by decide)

/-- **Joining halves** gives the number they stand for, as far as it fits. -/
theorem toNat_toValue {h : Halves} (hlow : h.low.toNat < 2 ^ 32) :
    h.toValue.toNat = h.nat % 2 ^ 64 := by
  have hhigh : (h.high <<< 32).toNat = (h.high.toNat % 2 ^ 32) <<< 32 := by
    rw [UInt64.toNat_shiftLeft, Nat.shiftLeft_eq, Nat.shiftLeft_eq]
    exact Nat.mul_mod_mul_right (2 ^ 32) h.high.toNat (2 ^ 32)
  rw [toValue, UInt64.toNat_or, hhigh, ← Nat.shiftLeft_add_eq_or_of_lt hlow, Nat.shiftLeft_eq, nat]
  omega

/-- Halves that are digits are joined without loss. -/
theorem Digits.toNat_toValue {h : Halves} (hh : h.Digits) : h.toValue.toNat = h.nat := by
  rw [Halves.toNat_toValue hh.low_lt]
  refine Nat.mod_eq_of_lt ?_
  have hhigh := hh.high_lt
  have hlow := hh.low_lt
  unfold nat
  omega

/-! ## The scaled product -/

/-- The remainder that the upper product loses to the scale, carried into the lower half, makes up
the digits of the whole product. -/
theorem carry_eq (upper lower : ℕ) {scale : ℕ} (h : scale ≤ 32) :
    upper / 2 ^ scale * 2 ^ 32 + (upper % 2 ^ scale * 2 ^ (32 - scale) + lower / 2 ^ scale)
      = (upper * 2 ^ 32 + lower) / 2 ^ scale := by
  have hbase : (2 : ℕ) ^ 32 = 2 ^ scale * 2 ^ (32 - scale) := by
    rw [← pow_add, Nat.add_sub_cancel' h]
  have hupper : upper * 2 ^ 32 + lower
      = 2 ^ scale * (upper / 2 ^ scale * 2 ^ 32 + upper % 2 ^ scale * 2 ^ (32 - scale)) + lower := by
    calc upper * 2 ^ 32 + lower
        = (2 ^ scale * (upper / 2 ^ scale) + upper % 2 ^ scale) * 2 ^ 32 + lower := by
          rw [Nat.div_add_mod]
      _ = 2 ^ scale * (upper / 2 ^ scale * 2 ^ 32) + upper % 2 ^ scale * 2 ^ 32 + lower := by ring
      _ = _ := by
          conv_lhs => rw [hbase]
          conv_rhs => rw [hbase]
          ring
  rw [hupper, Nat.mul_add_div (Nat.two_pow_pos scale), Nat.add_assoc]

/-- A product of two numbers below `2 ^ 32`. -/
theorem product_le {a b : ℕ} (ha : a < 2 ^ 32) (hb : b < 2 ^ 32) :
    a * b ≤ (2 ^ 32 - 1) * (2 ^ 32 - 1) :=
  Nat.mul_le_mul (Nat.le_sub_one_of_lt ha) (Nat.le_sub_one_of_lt hb)

/-- Words below `2 ^ 32` are multiplied without overflow. -/
theorem toNat_mul_of_lt {a b : UInt64} (ha : a.toNat < 2 ^ 32) (hb : b.toNat < 2 ^ 32) :
    (a * b).toNat = a.toNat * b.toNat := by
  have hle := product_le ha hb
  rw [UInt64.toNat_mul, Nat.mod_eq_of_lt (by omega)]

/-- A remainder below the scale stays below `2 ^ 32` when it is carried over. -/
theorem carry_lt (upper : ℕ) {scale : ℕ} (h : scale ≤ 32) :
    upper % 2 ^ scale * 2 ^ (32 - scale) < 2 ^ 32 :=
  calc upper % 2 ^ scale * 2 ^ (32 - scale)
      < 2 ^ scale * 2 ^ (32 - scale) :=
        Nat.mul_lt_mul_of_pos_right (Nat.mod_lt _ (Nat.two_pow_pos scale)) (Nat.two_pow_pos _)
    _ = 2 ^ 32 := by rw [← pow_add, Nat.add_sub_cancel' h]

/-- With what is carried over the lower quotient still fits in a word: a scale of 0 carries nothing, and
any other at least halves the lower product. -/
theorem carry_add_lt (upper : ℕ) {lower scale : ℕ} (hlower : lower < 2 ^ 64) (h : scale ≤ 32) :
    upper % 2 ^ scale * 2 ^ (32 - scale) + lower / 2 ^ scale < 2 ^ 64 := by
  rcases Nat.eq_zero_or_pos scale with rfl | hpos
  · rw [Nat.pow_zero, Nat.mod_one, Nat.zero_mul, Nat.zero_add, Nat.div_one]
    exact hlower
  · have hcarry := carry_lt upper h
    have hhalf : lower / 2 ^ scale ≤ lower / 2 :=
      Nat.div_le_div_left (Nat.le_self_pow hpos.ne' 2) Nat.two_pos
    omega

variable {h : Halves} {factor : UInt64} {scale : UInt32}

/-- The lower half of a scaled product is a digit. -/
theorem low_scaled_lt : (h.scaled factor scale).low.toNat < 2 ^ 32 := by
  rw [scaled, toNat_and_lowMask]
  exact Nat.mod_lt _ (by decide)

/-- What the upper product loses to the scale, carried into the lower half. -/
theorem toNat_carried (upper : UInt64) (hscale : scale.toNat ≤ 32) :
    ((upper &&& ((1 <<< scale.toUInt64) - 1)) <<< (32 - scale).toUInt64).toNat
      = upper.toNat % 2 ^ scale.toNat * 2 ^ (32 - scale.toNat) := by
  have hcarry := carry_lt upper.toNat hscale
  rw [UInt64.toNat_shiftLeft, toNat_and_scaleMask _ hscale, UInt32.toNat_toUInt64,
    toNat_sub_scale hscale, Nat.shiftLeft_eq, Nat.mod_eq_of_lt (by omega : 32 - scale.toNat < 64),
    Nat.mod_eq_of_lt (hcarry.trans (by decide))]

/-- The lower half of a scaled product before its carry is taken off: what the upper product loses to
the scale, and the lower product. -/
theorem toNat_lower (upper lower : UInt64) (hscale : scale.toNat ≤ 32) :
    (((upper &&& ((1 <<< scale.toUInt64) - 1)) <<< (32 - scale).toUInt64)
        + (lower >>> scale.toUInt64)).toNat
      = upper.toNat % 2 ^ scale.toNat * 2 ^ (32 - scale.toNat) + lower.toNat / 2 ^ scale.toNat := by
  rw [UInt64.toNat_add, toNat_carried _ hscale, toNat_shiftRight_of_lt _ (by omega),
    Nat.mod_eq_of_lt (carry_add_lt upper.toNat lower.toNat_lt hscale)]

/-- The halves multiplied by a factor, each product as far as it fits in a word. -/
def product (h : Halves) (factor : UInt64) : ℕ :=
  (h.high * factor).toNat * 2 ^ 32 + (h.low * factor).toNat

/-- **The scaled product divides the products of the halves**, whatever the factor; its own upper half is
a word again. -/
theorem nat_scaled (h : Halves) (factor : UInt64) (hscale : scale.toNat ≤ 32) :
    (h.scaled factor scale).nat = h.product factor / 2 ^ scale.toNat % 2 ^ 96 := by
  have hlower := toNat_lower (h.high * factor) (h.low * factor) hscale
  rw [product, ← carry_eq _ _ hscale, nat, scaled]
  dsimp only
  rw [UInt64.toNat_add, toNat_shiftRight_of_lt _ (by omega), toNat_shiftRight_32, toNat_and_lowMask,
    hlower]
  omega

theorem Digits.nat_lt (hh : h.Digits) : h.nat < 2 ^ 64 := by
  have hhigh := hh.high_lt
  have hlow := hh.low_lt
  unfold nat
  omega

/-- A factor of 32 bits has no product of a digit that wraps. -/
theorem Digits.product_eq (hh : h.Digits) (hfactor : factor.toNat < 2 ^ 32) :
    h.product factor = h.nat * factor.toNat := by
  rw [product, toNat_mul_of_lt hh.high_lt hfactor, toNat_mul_of_lt hh.low_lt hfactor, nat]
  ring

/-- **The scaled product is exact**: for a factor of 32 bits no operation wraps. -/
theorem Digits.nat_scaled (hh : h.Digits) (hfactor : factor.toNat < 2 ^ 32) (hscale : scale.toNat ≤ 32) :
    (h.scaled factor scale).nat = h.nat * factor.toNat / 2 ^ scale.toNat := by
  have hproduct : h.nat * factor.toNat < 2 ^ 64 * 2 ^ 32 := Nat.mul_lt_mul'' hh.nat_lt hfactor
  rw [Halves.nat_scaled h factor hscale, hh.product_eq hfactor]
  exact Nat.mod_eq_of_lt ((Nat.div_le_self _ _).trans_lt hproduct)

/-- A factor of one at most leaves digits. -/
theorem Digits.scaled (hh : h.Digits) (hfactor : factor.toNat < 2 ^ 32)
    (hscale : scale.toNat ≤ 32) (hone : factor.toNat ≤ 2 ^ scale.toNat) :
    (h.scaled factor scale).Digits := by
  refine ⟨?_, low_scaled_lt⟩
  have hnat := hh.nat_scaled hfactor hscale
  have hle : h.nat * factor.toNat / 2 ^ scale.toNat ≤ h.nat :=
    Nat.div_le_of_le_mul (by rw [Nat.mul_comm]; exact Nat.mul_le_mul_right _ hone)
  have hhigh := hh.high_lt
  have hlow := hh.low_lt
  unfold nat at hnat hle
  omega

end Halves

variable {scale : UInt32}

/-- **A scaled product, whatever the factor**: the products of the halves, reduced once more where the
result is joined, and divided. -/
theorem toNat_scaledProduct_eq (value factor : UInt64) (hscale : scale.toNat < 96) :
    (scaledProduct value factor scale).toNat
      = (Halves.ofValue value).product factor % 2 ^ (64 + min scale.toNat 32) / 2 ^ scale.toNat := by
  have hword : (2 : ℕ) ^ 64 ∣ 2 ^ 96 := pow_dvd_pow 2 (by decide)
  unfold scaledProduct
  split
  · next hle =>
    have hshort : scale.toNat ≤ 32 := UInt32.le_iff_toNat_le.mp hle
    rw [Halves.toNat_toValue Halves.low_scaled_lt, Halves.nat_scaled _ _ hshort,
      Nat.mod_mod_of_dvd _ hword, Nat.min_eq_left hshort, Nat.add_comm, pow_add,
      Nat.mod_mul_right_div_self]
  · next hgt =>
    have hlong : 32 < scale.toNat := by
      rw [UInt32.le_iff_toNat_le] at hgt
      exact Nat.lt_of_not_le hgt
    have hdistance : (scale - 32).toNat = scale.toNat - 32 :=
      UInt32.toNat_sub_of_le _ _ (UInt32.le_iff_toNat_le.mpr hlong.le)
    rw [Halves.toNat_shiftRight_of_lt _ (by omega), Halves.toNat_toValue Halves.low_scaled_lt,
      Halves.nat_scaled _ _ (by decide), Nat.mod_mod_of_dvd _ hword, Nat.min_eq_right hlong.le,
      hdistance, show (32 : UInt32).toNat = 32 from rfl, ← Nat.mod_mul_right_div_self, ← pow_add,
      Nat.div_div_eq_div_mul, ← pow_add, Nat.add_sub_cancel' hlong.le]

theorem mul_factor_lt (value : UInt64) {factor : UInt64} (hfactor : factor.toNat < 2 ^ 32) :
    value.toNat * factor.toNat < 2 ^ 64 * 2 ^ 32 :=
  Nat.mul_lt_mul'' value.toNat_lt hfactor

/-- A scale of 32 or more takes off all that a factor of 32 bits can add to a word. -/
theorem mul_factor_div_lt (value : UInt64) {factor : UInt64} (hfactor : factor.toNat < 2 ^ 32)
    {scale : ℕ} (hscale : 32 ≤ scale) : value.toNat * factor.toNat / 2 ^ scale < 2 ^ 64 := by
  refine Nat.div_lt_of_lt_mul ((mul_factor_lt value hfactor).trans_le ?_)
  rw [Nat.mul_comm]
  exact Nat.mul_le_mul_right _ (Nat.pow_le_pow_right Nat.two_pos hscale)

/-- **A scaled product is the product of the naturals, divided and rounded down**, as far as it fits. -/
theorem toNat_scaledProduct (value : UInt64) {factor : UInt64}
    (hfactor : factor.toNat < 2 ^ 32) (hscale : scale.toNat < 96) :
    (scaledProduct value factor scale).toNat
      = value.toNat * factor.toNat / 2 ^ scale.toNat % 2 ^ 64 := by
  rw [toNat_scaledProduct_eq value factor hscale,
    (Halves.digits_ofValue value).product_eq hfactor, Halves.nat_ofValue]
  rcases Nat.le_total scale.toNat 32 with hshort | hlong
  · rw [Nat.min_eq_left hshort, Nat.add_comm, pow_add, Nat.mod_mul_right_div_self]
  · rw [Nat.min_eq_right hlong, pow_add, Nat.mod_eq_of_lt (mul_factor_lt value hfactor),
      Nat.mod_eq_of_lt (mul_factor_div_lt value hfactor hlong)]

end ManaWallet
