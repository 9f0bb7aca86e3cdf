/-!
# Arithmetic/Halves — multiplying a 64-bit value by a scaled 32-bit factor

    value ──split──▸ (high, low) ──· factor / 2 ^ scale──▸ (high', low') ──join──▸ result

A value is carried as two 32-bit halves in 64-bit registers, so that for a factor of 32 bits no
intermediate product needs more than 64.  Every operation wraps, and a shift takes its distance
modulo 64: the result is defined, bit for bit, for all factors and all scales.
-/

namespace ManaWallet

/-- A 64-bit value as an upper and a lower part; both are below `2 ^ 32` where the value is split
exactly. -/
structure Halves where
  high : UInt64
  low : UInt64
deriving DecidableEq, Repr

namespace Halves

/-- The bits of a lower half. -/
def lowMask : UInt64 := 0xFFFFFFFF

/-- The upper and the lower 32 bits of a value. -/
def ofValue (value : UInt64) : Halves := ⟨value >>> 32, value &&& lowMask⟩

/-- The value two halves stand for. -/
def toValue (h : Halves) : UInt64 := (h.high <<< 32) ||| h.low

/-- The halves multiplied by `factor / 2 ^ scale`, rounded down.  The bits that the upper product
loses to the scale are carried into the lower half. -/
def scaled (h : Halves) (factor : UInt64) (scale : UInt32) : Halves :=
  let upper := h.high * factor
  let lost := upper &&& ((1 <<< scale.toUInt64) - 1)
  let lower := (lost <<< (32 - scale).toUInt64) + ((h.low * factor) >>> scale.toUInt64)
  ⟨(upper >>> scale.toUInt64) + (lower >>> 32), lower &&& lowMask⟩

end Halves

/-- A value multiplied by `factor / 2 ^ scale`, rounded down.  A scale above 32 is taken in two
steps: 32 on the halves, the rest on the joined value. -/
def scaledProduct (value factor : UInt64) (scale : UInt32) : UInt64 :=
  if scale ≤ 32 then ((Halves.ofValue value).scaled factor scale).toValue
  else ((Halves.ofValue value).scaled factor 32).toValue >>> (scale - 32).toUInt64

end ManaWallet
