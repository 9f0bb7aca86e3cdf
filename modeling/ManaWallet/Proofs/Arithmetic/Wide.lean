import ManaWallet.Proofs.Arithmetic.Halves

/-!
# Proofs/Arithmetic/Wide — scaled products by factors of any width

    value · factor = product of the halves + 2 ^ 64 · what wraps

A factor of more than 32 bits can make the products of the halves wrap, and joining the result can cut it
once more.  What is lost on the way is a multiple of `2 ^ 64`, which no scale up to 64 rounds off: a scaled
product is exact where nothing of it is lost, and nowhere else (`toNat_scaledProduct_eq_iff`).
-/

namespace ManaWallet

namespace Halves

variable {h : Halves} {factor : UInt64}

/-- The words that the products of the halves lose, those of the upper counted `2 ^ 32` times. -/
def wrapped (h : Halves) (factor : UInt64) : ℕ :=
  h.high.toNat * factor.toNat / 2 ^ 64 * 2 ^ 32 + h.low.toNat * factor.toNat / 2 ^ 64

/-- The product with the upper half counts `2 ^ 32` times. -/
theorem nat_mul (h : Halves) (factor : ℕ) :
    h.nat * factor = h.high.toNat * factor * 2 ^ 32 + h.low.toNat * factor := by
  rw [nat]
  ring

/-- **What is lost** is what the products of the halves wrap by. -/
theorem product_add_wrapped (h : Halves) (factor : UInt64) :
    h.product factor + h.wrapped factor * 2 ^ 64 = h.nat * factor.toNat := by
  have hupper := Nat.mod_add_div (h.high.toNat * factor.toNat) (2 ^ 64)
  have hlower := Nat.mod_add_div (h.low.toNat * factor.toNat) (2 ^ 64)
  rw [nat_mul, product, wrapped, UInt64.toNat_mul, UInt64.toNat_mul]
  omega

theorem wrapped_eq_zero_iff : h.wrapped factor = 0 ↔
    h.high.toNat * factor.toNat < 2 ^ 64 ∧ h.low.toNat * factor.toNat < 2 ^ 64 := by
  rw [wrapped]
  omega

/-- **Nothing is lost** in a width that the halves fill at most: a whole product that fits leaves the upper
half no room to wrap. -/
theorem product_lt_and_wrapped_iff (h : Halves) (factor : UInt64) {width : ℕ} (hwidth : width ≤ 96) :
    h.product factor < 2 ^ width ∧ h.wrapped factor = 0 ↔
      h.low.toNat * factor.toNat < 2 ^ 64 ∧ h.nat * factor.toNat < 2 ^ width := by
  have hle : (2 : ℕ) ^ width ≤ 2 ^ 96 := Nat.pow_le_pow_right Nat.two_pos hwidth
  have hproduct := h.product_add_wrapped factor
  constructor
  · rintro ⟨hfits, hnone⟩
    rw [hnone, Nat.zero_mul, Nat.add_zero] at hproduct
    exact ⟨(wrapped_eq_zero_iff.mp hnone).2, hproduct ▸ hfits⟩
  · rintro ⟨hlow, hfits⟩
    have hhigh : h.high.toNat * factor.toNat < 2 ^ 64 := by
      have hnat := h.nat_mul factor.toNat
      omega
    exact ⟨by omega, wrapped_eq_zero_iff.mpr ⟨hhigh, hlow⟩⟩

/-- Without a factor there is no product. -/
theorem product_zero (h : Halves) : h.product 0 = 0 := by
  rw [product, UInt64.mul_zero, UInt64.mul_zero]
  rfl

end Halves

variable {scale : UInt32}

theorem scaledProduct_zero (value : UInt64) (hscale : scale.toNat < 96) :
    scaledProduct value 0 scale = 0 := by
  rw [← UInt64.toNat_inj, toNat_scaledProduct_eq value 0 hscale, Halves.product_zero, Nat.zero_mod,
    Nat.zero_div]
  rfl

/-- **A scaled product is never too large**, whatever the factor. -/
theorem toNat_scaledProduct_le (value factor : UInt64) (hscale : scale.toNat < 96) :
    (scaledProduct value factor scale).toNat ≤ value.toNat * factor.toNat / 2 ^ scale.toNat := by
  have hproduct := (Halves.ofValue value).product_add_wrapped factor
  rw [Halves.nat_ofValue] at hproduct
  rw [toNat_scaledProduct_eq value factor hscale]
  exact Nat.div_le_div_right ((Nat.mod_le _ _).trans (by omega))

/-- Whole multiples of a divisor are lost by a quotient exactly if there are any. -/
theorem div_eq_add_mul_div_iff (kept lost : ℕ) {divisor : ℕ} (h : 0 < divisor) :
    kept / divisor = (kept + lost * divisor) / divisor ↔ lost = 0 := by
  rw [Nat.add_mul_div_right _ _ h, Nat.left_eq_add]

/-- **A scaled product is exact** exactly if neither the product of the lower half nor the whole one
wraps. -/
theorem toNat_scaledProduct_eq_iff (value factor : UInt64) (hscale : scale.toNat ≤ 64) :
    (scaledProduct value factor scale).toNat = value.toNat * factor.toNat / 2 ^ scale.toNat ↔
      value.toNat % 2 ^ 32 * factor.toNat < 2 ^ 64 ∧
        value.toNat * factor.toNat < 2 ^ (64 + min scale.toNat 32) := by
  obtain ⟨width, hwidth⟩ : ∃ width, width = 64 + min scale.toNat 32 := ⟨_, rfl⟩
  have hproduct := (Halves.ofValue value).product_add_wrapped factor
  have hnothing := (Halves.ofValue value).product_lt_and_wrapped_iff factor (by omega : width ≤ 96)
  rw [Halves.nat_ofValue] at hproduct hnothing
  rw [Halves.toNat_low_ofValue] at hnothing
  -- what is lost, over the scale
  have hlost : value.toNat * factor.toNat = (Halves.ofValue value).product factor % 2 ^ width
      + ((Halves.ofValue value).product factor / 2 ^ width * 2 ^ (width - scale.toNat)
          + (Halves.ofValue value).wrapped factor * 2 ^ (64 - scale.toNat)) * 2 ^ scale.toNat := by
    rw [Nat.add_mul, Nat.mul_assoc, Nat.mul_assoc, ← pow_add, ← pow_add,
      Nat.sub_add_cancel (by omega), Nat.sub_add_cancel hscale, ← Nat.add_assoc, Nat.mod_add_div',
      hproduct]
  rw [toNat_scaledProduct_eq value factor (by omega), ← hwidth, ← hnothing, hlost,
    div_eq_add_mul_div_iff _ _ (Nat.two_pow_pos _), Nat.add_eq_zero_iff,
    mul_eq_zero_iff_right (Nat.two_pow_pos _).ne', mul_eq_zero_iff_right (Nat.two_pow_pos _).ne',
    Nat.div_eq_zero_iff_lt (Nat.two_pow_pos _)]

end ManaWallet
