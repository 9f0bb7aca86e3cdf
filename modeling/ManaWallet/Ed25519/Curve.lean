import ManaWallet.Bytes
import ManaWallet.Ed25519.Field

/-!
# Ed25519/Curve — the group of points that keys and signatures live in

The points of `y² - x² = 1 + d x² y²`, in the four coordinates `X : Y : Z : T` with `x = X / Z`,
`y = Y / Z` and `x y = T / Z`, for which one law adds every two points, equal ones included.  A point is
written as the 255 bits of `y` below the parity of `x`.
-/

namespace ManaWallet.Ed25519

/-- The constant of the curve. -/
def curveConstant : Coordinate := -(121665 * Coordinate.inverse 121666)

/-- The number of multiples of the base point. -/
def groupOrder : Nat := (1 <<< 252) + 27742317777372353535851937790883648493

/-- A point of the curve. -/
structure Point where
  x : Coordinate
  y : Coordinate
  z : Coordinate
  t : Coordinate

namespace Point

/-- The point of given plane coordinates. -/
def ofPlane (x y : Coordinate) : Point := ⟨x, y, 1, x * y⟩

/-- The neutral point. -/
def zero : Point := ofPlane 0 1

/-- The point that keys are multiples of. -/
def base : Point :=
  ofPlane 15112221349535400772501151409588531511454012693041857206046113283949847762202
    46316835694926478169428394003475163141307993866256225615783033603165251855960

/-- The sum of two points. -/
def add (p q : Point) : Point :=
  let a := (p.y - p.x) * (q.y - q.x)
  let b := (p.y + p.x) * (q.y + q.x)
  let c := 2 * curveConstant * p.t * q.t
  let d := 2 * p.z * q.z
  let e := b - a
  let f := d - c
  let g := d + c
  let h := b + a
  ⟨e * f, g * h, f * g, e * h⟩

instance : Add Point := ⟨add⟩

/-- The point with `x` negated. -/
def neg (p : Point) : Point := ⟨-p.x, p.y, p.z, -p.t⟩

instance : Neg Point := ⟨neg⟩

/-- A multiple of a point, by doubling along the binary digits of the factor. -/
def multiple (p : Point) (n : Nat) : Point :=
  (binaryDigits n).foldr (fun bit q => if bit then q + q + p else q + q) zero

/-- The 32 bytes that a point is written as. -/
def encode (p : Point) : Bytes 32 :=
  let inverse := Coordinate.inverse p.z
  let x := p.x * inverse
  let y := p.y * inverse
  Bytes.ofNat 32 (y.val + ((x.val % 2) <<< 255))

/-- The point that 32 bytes stand for.  The 255 bits of `y` are taken modulo the field's order, and
either parity is accepted where `x` is zero. -/
def decode? (bytes : Bytes 32) : Option Point :=
  let number := ofLittleEndian bytes.toList
  let y : Coordinate := Fin.ofNat prime (number % (1 <<< 255))
  let square := y * y
  (Coordinate.rootOfRatio? (square - 1) (curveConstant * square + 1)).map fun root =>
    ofPlane (if number.testBit 255 then -root else root) y

end Point

end ManaWallet.Ed25519
