/-!
# Ed25519/Field — integers modulo `2 ^ 255 - 19`

The coordinates of curve points.  Powers are taken by squaring along the binary digits of the
exponent; inverses and square roots are powers.
-/

namespace ManaWallet.Ed25519

/-- The order of the field. -/
def prime : Nat := (1 <<< 255) - 19

instance : @NeZero Nat Zero.ofOfNat0 prime := ⟨by decide⟩

/-- A coordinate of a curve point. -/
abbrev Coordinate := Fin prime

/-- The binary digits of a number of at most 256 bits, the least significant first. -/
def binaryDigits (n : Nat) : List Bool := (List.range 256).map n.testBit

namespace Coordinate

/-- A power with an exponent of at most 256 bits. -/
def power (x : Coordinate) (exponent : Nat) : Coordinate :=
  (binaryDigits exponent).foldr (fun bit y => if bit then y * y * x else y * y) 1

/-- The inverse of a coordinate other than zero. -/
def inverse (x : Coordinate) : Coordinate := power x (prime - 2)

/-- A square root of minus one. -/
def rootOfMinusOne : Coordinate := power 2 ((prime - 1) / 4)

/-- The even square root of `u / v`, if there is one. -/
def rootOfRatio? (u v : Coordinate) : Option Coordinate :=
  let candidate := u * power v 3 * power (u * power v 7) ((prime - 5) / 8)
  let square := v * (candidate * candidate)
  let root? :=
    if square = u then some candidate
    else if square = -u then some (candidate * rootOfMinusOne)
    else none
  root?.map fun root => if root.val % 2 = 0 then root else -root

end Coordinate

end ManaWallet.Ed25519
