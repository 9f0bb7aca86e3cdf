import ManaWallet.Arithmetic.Checked
import ManaWallet.Proofs.Arithmetic.Halves

/-!
# Proofs/Arithmetic/Unwrapped — no operation of a scaled product wraps

    scaled?  =  scaled, where every operation has to fit

`scaled?` does the steps of `Halves.scaled` and gives up at the first that would lose something: a sum,
difference or product out of range, a bit shifted out to the left, a distance that a shift would reduce.
It gives up exactly if the scale, a product of a half or the result is too wide
(`Halves.scaled?_eq_some_iff`), and on digits and for a factor of 32 bits never (`Halves.Digits.fits`).  There only joining the halves can cut
anything off, and for a scale above 32 not even that (`scaling_exact`).
-/

namespace ManaWallet

/-- A shift to the left, if it takes its whole distance and loses no bit. -/
def shiftLeft? (x : UInt64) (distance : UInt32) : Option UInt64 :=
  if distance.toNat < 64 ∧ x.toNat * 2 ^ distance.toNat < UInt64.size then
    some (x <<< distance.toUInt64)
  else none

/-- A shift to the right, if it takes its whole distance; it is meant to round down. -/
def shiftRight? (x : UInt64) (distance : UInt32) : Option UInt64 :=
  if distance.toNat < 64 then some (x >>> distance.toUInt64) else none

namespace Halves

/-- The halves multiplied by `factor / 2 ^ scale`, rounded down, if no operation on the way wraps. -/
def scaled? (h : Halves) (factor : UInt64) (scale : UInt32) : Option Halves := do
  guard (scale ≤ 32)
  let upper ← (checkedMul h.high factor).toOption
  let bit ← shiftLeft? 1 scale
  let mask ← (checkedSub bit 1).toOption
  let carried ← shiftLeft? (upper &&& mask) (32 - scale)
  let product ← (checkedMul h.low factor).toOption
  let quotient ← shiftRight? product scale
  let lower ← (checkedAdd carried quotient).toOption
  let rest ← shiftRight? upper scale
  let high ← (checkedAdd rest (lower >>> 32)).toOption
  return ⟨high, lower &&& lowMask⟩

variable {h : Halves} {factor : UInt64} {scale : UInt32}

/-! ## The steps that always fit -/

theorem shiftRight?_of_le (x : UInt64) (hscale : scale.toNat ≤ 32) :
    shiftRight? x scale = some (x >>> scale.toUInt64) :=
  if_pos (by omega)

theorem shiftLeft?_one (hscale : scale.toNat ≤ 32) :
    shiftLeft? 1 scale = some (1 <<< scale.toUInt64) := by
  have hpow : 2 ^ scale.toNat ≤ 2 ^ 32 := Nat.pow_le_pow_right Nat.two_pos hscale
  refine if_pos ⟨by omega, ?_⟩
  rw [UInt64.toNat_one, Nat.one_mul]
  exact hpow.trans_lt (by decide)

theorem checkedSub_mask (hscale : scale.toNat ≤ 32) :
    checkedSub (1 <<< scale.toUInt64) 1 = .ok ((1 <<< scale.toUInt64) - 1) :=
  if_pos (one_le_one_shiftLeft hscale)

/-- The bits that are carried stay within the lower half. -/
theorem shiftLeft?_carried (upper : UInt64) (hscale : scale.toNat ≤ 32) :
    shiftLeft? (upper &&& ((1 <<< scale.toUInt64) - 1)) (32 - scale)
      = some ((upper &&& ((1 <<< scale.toUInt64) - 1)) <<< (32 - scale).toUInt64) := by
  refine if_pos ⟨?_, ?_⟩
  · rw [toNat_sub_scale hscale]
    omega
  · rw [toNat_and_scaleMask _ hscale, toNat_sub_scale hscale]
    exact (carry_lt upper.toNat hscale).trans (by decide)

/-- The lower half of a scaled product before its carry is taken off. -/
def lowerSum (upper lower : UInt64) (scale : UInt32) : UInt64 :=
  ((upper &&& ((1 <<< scale.toUInt64) - 1)) <<< (32 - scale).toUInt64) + (lower >>> scale.toUInt64)

theorem checkedAdd_lower (upper lower : UInt64) (hscale : scale.toNat ≤ 32) :
    checkedAdd ((upper &&& ((1 <<< scale.toUInt64) - 1)) <<< (32 - scale).toUInt64)
        (lower >>> scale.toUInt64) = .ok (lowerSum upper lower scale) := by
  refine checkedAdd_eq_ok_iff.mpr ?_
  rw [lowerSum, toNat_lower _ _ hscale, toNat_carried _ hscale, toNat_shiftRight_of_lt _ (by omega)]

/-- A scale that fits leaves two products and a sum to check. -/
theorem scaled?_of_le (h : Halves) (factor : UInt64) (hscale : scale.toNat ≤ 32) :
    h.scaled? factor scale =
      (checkedMul h.high factor).toOption.bind fun upper =>
        (checkedMul h.low factor).toOption.bind fun lower =>
          (checkedAdd (upper >>> scale.toUInt64) (lowerSum upper lower scale >>> 32)).toOption.map
            fun high => ⟨high, lowerSum upper lower scale &&& lowMask⟩ := by
  have hshort : scale ≤ 32 := UInt32.le_iff_toNat_le.mpr hscale
  have hok : ∀ x : UInt64, (Except.ok x : Except ArithmeticError UInt64).toOption = some x :=
    fun _ => rfl
  simp only [scaled?, guard, if_pos hshort, shiftLeft?_one hscale, shiftRight?_of_le _ hscale,
    checkedSub_mask hscale, shiftLeft?_carried _ hscale, checkedAdd_lower _ _ hscale, hok,
    Option.bind_eq_bind, Option.bind_some, Option.pure_def, Option.map_eq_bind]
  rfl

/-! ## The steps that may not -/

/-- What has to fit for the halves to be scaled: the scale in a half, the two products in a word each, and
the result in as many bits as its halves have. -/
structure Fits (h : Halves) (factor : UInt64) (scale : UInt32) : Prop where
  scale_le : scale.toNat ≤ 32
  high_lt : h.high.toNat * factor.toNat < 2 ^ 64
  low_lt : h.low.toNat * factor.toNat < 2 ^ 64
  result_lt : h.nat * factor.toNat / 2 ^ scale.toNat < 2 ^ 96

/-- The upper sum fits exactly if the result does. -/
theorem high_lt_iff (hscale : scale.toNat ≤ 32) (hhigh : h.high.toNat * factor.toNat < 2 ^ 64)
    (hlow : h.low.toNat * factor.toNat < 2 ^ 64) :
    ((h.high * factor) >>> scale.toUInt64).toNat
        + (lowerSum (h.high * factor) (h.low * factor) scale >>> 32).toNat < 2 ^ 64 ↔
      h.nat * factor.toNat / 2 ^ scale.toNat < 2 ^ 96 := by
  have hnat : h.nat * factor.toNat
      = (h.high * factor).toNat * 2 ^ 32 + (h.low * factor).toNat := by
    rw [UInt64.toNat_mul, UInt64.toNat_mul, Nat.mod_eq_of_lt hhigh, Nat.mod_eq_of_lt hlow, nat]
    ring
  rw [hnat, ← carry_eq _ _ hscale, toNat_shiftRight_of_lt _ (by omega), toNat_shiftRight_32, lowerSum,
    toNat_lower _ _ hscale]
  omega

theorem toOption_checkedMul_eq_some_iff {a b c : UInt64} :
    (checkedMul a b).toOption = some c ↔ a.toNat * b.toNat < 2 ^ 64 ∧ a * b = c := by
  unfold checkedMul
  split
  · next h => exact ⟨fun hc => ⟨h, Option.some.inj hc⟩, fun hc => congrArg some hc.2⟩
  · next h => exact ⟨nofun, fun hc => absurd hc.1 h⟩

theorem toOption_checkedAdd_eq_some_iff {a b c : UInt64} :
    (checkedAdd a b).toOption = some c ↔ a.toNat + b.toNat < 2 ^ 64 ∧ a + b = c := by
  unfold checkedAdd
  split
  · next h => exact ⟨fun hc => ⟨h, Option.some.inj hc⟩, fun hc => congrArg some hc.2⟩
  · next h => exact ⟨nofun, fun hc => absurd hc.1 h⟩

/-- **No operation wraps** exactly if all that has to fit does, and then the halves are scaled. -/
theorem scaled?_eq_some_iff {r : Halves} :
    h.scaled? factor scale = some r ↔ h.Fits factor scale ∧ h.scaled factor scale = r := by
  constructor
  · intro hr
    have hscale : scale.toNat ≤ 32 := by
      refine Nat.le_of_not_lt fun hlong => ?_
      have hnone : h.scaled? factor scale = none := by
        rw [scaled?, guard, if_neg fun hle => Nat.not_le.mpr hlong (UInt32.le_iff_toNat_le.mp hle)]
        rfl
      cases hnone.symm.trans hr
    rw [scaled?_of_le h factor hscale] at hr
    obtain ⟨_, hupper, hr⟩ := Option.bind_eq_some_iff.mp hr
    obtain ⟨_, hlower, hr⟩ := Option.bind_eq_some_iff.mp hr
    obtain ⟨_, hsum, rfl⟩ := Option.map_eq_some_iff.mp hr
    obtain ⟨hhigh, rfl⟩ := toOption_checkedMul_eq_some_iff.mp hupper
    obtain ⟨hlow, rfl⟩ := toOption_checkedMul_eq_some_iff.mp hlower
    obtain ⟨hresult, rfl⟩ := toOption_checkedAdd_eq_some_iff.mp hsum
    exact ⟨⟨hscale, hhigh, hlow, (high_lt_iff hscale hhigh hlow).mp hresult⟩, rfl⟩
  · rintro ⟨hfits, rfl⟩
    have hsum := (high_lt_iff hfits.scale_le hfits.high_lt hfits.low_lt).mpr hfits.result_lt
    rw [scaled?_of_le h factor hfits.scale_le,
      toOption_checkedMul_eq_some_iff.mpr ⟨hfits.high_lt, rfl⟩, Option.bind_some,
      toOption_checkedMul_eq_some_iff.mpr ⟨hfits.low_lt, rfl⟩, Option.bind_some,
      toOption_checkedAdd_eq_some_iff.mpr ⟨hsum, rfl⟩]
    rfl

/-- The product of a lower half by a factor of 33 bits. -/
example : (Halves.ofValue 0xFFFFFFFF).scaled? 0x1000000FE 17 = none := by decide

/-- Digits and a factor of 32 bits have products that fit, and so does what is left of them. -/
theorem Digits.fits (hh : h.Digits) (hfactor : factor.toNat < 2 ^ 32) (hscale : scale.toNat ≤ 32) :
    h.Fits factor scale where
  scale_le := hscale
  high_lt := (Nat.mul_lt_mul'' hh.high_lt hfactor).trans_eq (by decide)
  low_lt := (Nat.mul_lt_mul'' hh.low_lt hfactor).trans_eq (by decide)
  result_lt := ((Nat.div_le_self _ _).trans_lt (Nat.mul_lt_mul'' hh.nat_lt hfactor)).trans_eq (by decide)

end Halves

/-- **Scaling is exact.**  For a factor of 32 bits a scaled product is the product of the naturals divided
and rounded down, as far as it fits, and beyond a scale of 32 it always fits; and the halves of a value are
scaled exactly, by operations of which none wraps. -/
theorem scaling_exact {factor : UInt64} (hfactor : factor.toNat < 2 ^ 32) :
    (∀ (value : UInt64) (scale : UInt32), scale.toNat < 96 →
      (scaledProduct value factor scale).toNat
          = value.toNat * factor.toNat / 2 ^ scale.toNat % 2 ^ 64 ∧
        (32 < scale.toNat → value.toNat * factor.toNat / 2 ^ scale.toNat < 2 ^ 64)) ∧
    (∀ (h : Halves) (scale : UInt32), h.Digits → scale.toNat ≤ 32 →
      (h.scaled factor scale).low.toNat < 2 ^ 32 ∧
        (h.scaled factor scale).nat = h.nat * factor.toNat / 2 ^ scale.toNat ∧
        h.scaled? factor scale = some (h.scaled factor scale)) := by
  refine ⟨fun value scale hscale => ⟨toNat_scaledProduct value hfactor hscale, fun hlong => ?_⟩,
    fun h scale hh hscale => ⟨Halves.low_scaled_lt, ?_, ?_⟩⟩
  · exact mul_factor_div_lt value hfactor hlong.le
  · exact hh.nat_scaled hfactor hscale
  · exact Halves.scaled?_eq_some_iff.mpr ⟨hh.fits hfactor hscale, rfl⟩

/-- The largest value times the largest factor, rounded off in one step and in two, and without any rounding,
where joining the halves cuts the result. -/
theorem scaling_exact_sample :
    (scaledProduct 0xFFFFFFFFFFFFFFFF 0xFFFFFFFF 32).toNat = 18446744069414584319 ∧
      (scaledProduct 0xFFFFFFFFFFFFFFFF 0xFFFFFFFF 95).toNat = 1 ∧
      (scaledProduct 0xFFFFFFFFFFFFFFFF 0xFFFFFFFF 0).toNat = 2 ^ 64 - (2 ^ 32 - 1) ∧
      (⟨0xFFFFFFFF, 0xFFFFFFFF⟩ : Halves).scaled? 0xFFFFFFFF 0
        = some ((⟨0xFFFFFFFF, 0xFFFFFFFF⟩ : Halves).scaled 0xFFFFFFFF 0) := by
  obtain ⟨hvalues, hhalves⟩ := scaling_exact (by decide : (0xFFFFFFFF : UInt64).toNat < 2 ^ 32)
  refine ⟨(hvalues _ 32 (by decide)).1.trans (by decide), (hvalues _ 95 (by decide)).1.trans (by decide),
    (hvalues _ 0 (by decide)).1.trans (by decide), ?_⟩
  exact (hhalves ⟨0xFFFFFFFF, 0xFFFFFFFF⟩ 0 ⟨by decide, by decide⟩ (by decide)).2.2

end ManaWallet
