/-!
# Bytes — strings of a fixed number of bytes, and numbers as bytes

Digests, keys and signatures are byte strings whose length is part of their type.  They are ordered
byte by byte, and written in lower-case hexadecimal.
-/

namespace ManaWallet

/-- A string of exactly `n` bytes. -/
abbrev Bytes (n : Nat) := Vector UInt8 n

instance (n : Nat) : Hashable (Bytes n) := ⟨fun b => hash b.toArray⟩

/-- The string of `n` zero bytes. -/
def Bytes.zero (n : Nat) : Bytes n := Vector.replicate n 0

/-- A list of bytes as a string of fixed length, if it has that length. -/
def Bytes.ofList? (n : Nat) (bytes : List UInt8) : Option (Bytes n) :=
  if h : bytes.toArray.size = n then some ⟨bytes.toArray, h⟩ else none

/-! ## Hexadecimal text -/

/-- The digit for a value below sixteen. -/
def hexDigit (value : Nat) : Char :=
  if value < 10 then .ofNat (48 + value) else .ofNat (87 + value)

/-- The value of a hexadecimal digit of either case. -/
def hexValue? (c : Char) : Option Nat :=
  if '0' ≤ c ∧ c ≤ '9' then some (c.toNat - 48)
  else if 'a' ≤ c ∧ c ≤ 'f' then some (c.toNat - 87)
  else if 'A' ≤ c ∧ c ≤ 'F' then some (c.toNat - 55)
  else none

/-- Two lower-case digits per byte, the upper half of a byte first. -/
def hexText (bytes : List UInt8) : String :=
  String.ofList (bytes.flatMap fun b => [hexDigit (b.toNat / 16), hexDigit (b.toNat % 16)])

/-- Hexadecimal text behind the marker `0x`, as identifiers are written. -/
def prefixedHex (bytes : List UInt8) : String := "0x" ++ hexText bytes

/-! ## Numbers, least significant byte first -/

/-- The `width` low bytes of a number, the least significant first. -/
def littleEndian : (width : Nat) → Nat → List UInt8
  | 0, _ => []
  | width + 1, n => UInt8.ofNat n :: littleEndian width (n / 256)

/-- The number that bytes stand for, the first being the least significant. -/
def ofLittleEndian (bytes : List UInt8) : Nat :=
  bytes.foldr (fun b n => b.toNat + 256 * n) 0

@[simp] theorem length_littleEndian (width n : Nat) : (littleEndian width n).length = width := by
  induction width generalizing n with
  | zero => rfl
  | succ width ih => simp [littleEndian, ih]

/-- The `n` low bytes of a number as a string of fixed length. -/
def Bytes.ofNat (n number : Nat) : Bytes n := ⟨(littleEndian n number).toArray, by simp⟩

/-- **Reading back the bytes of a number gives the number**, cut to the width it was written in. -/
theorem ofLittleEndian_littleEndian (width n : Nat) :
    ofLittleEndian (littleEndian width n) = n % (1 <<< (8 * width)) := by
  induction width generalizing n with
  | zero => exact (Nat.mod_one n).symm
  | succ width ih =>
    have hcons : ofLittleEndian (littleEndian (width + 1) n)
        = n % 256 + 256 * ofLittleEndian (littleEndian width (n / 256)) := by
      simp [littleEndian, ofLittleEndian, UInt8.toNat_ofNat']
    have hshift : 1 <<< (8 * (width + 1)) = 256 * (1 <<< (8 * width)) := by
      rw [Nat.mul_add_one, Nat.shiftLeft_add, Nat.shiftLeft_eq _ 8, Nat.mul_comm]
    rw [hcons, ih, hshift, Nat.mod_mul]

end ManaWallet
