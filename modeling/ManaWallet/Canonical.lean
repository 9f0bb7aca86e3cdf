import ManaWallet.Bytes

/-!
# Canonical — the one byte form of every ledger value

Digests, signing messages and work scores are taken from the same bytes, so that all parties agree on
them.  The rules of the form:

* a word is written in its full width, least significant byte first;
* a string of fixed length is written as it is, a list behind its length as a 64-bit word;
* an optional value is written behind a byte 1, an absent one is the byte 0;
* an alternative is its number as a 32-bit word, then its contents;
* a record is its fields in order, with nothing between them.
-/

namespace ManaWallet

/-- Values with a canonical byte form. -/
class Canonical (α : Type) where
  encode : α → List UInt8

export Canonical (encode)

namespace Canonical

/-- The number that opens an alternative. -/
def variant (index : Nat) : List UInt8 := littleEndian 4 index

/-- The length that opens a list. -/
def lengthPrefix (length : Nat) : List UInt8 := littleEndian 8 length

instance : Canonical UInt8 := ⟨fun x => [x]⟩
instance : Canonical UInt16 := ⟨fun x => littleEndian 2 x.toNat⟩
instance : Canonical UInt32 := ⟨fun x => littleEndian 4 x.toNat⟩
instance : Canonical UInt64 := ⟨fun x => littleEndian 8 x.toNat⟩
instance : Canonical Int64 := ⟨fun x => littleEndian 8 x.toUInt64.toNat⟩

instance (n : Nat) : Canonical (Bytes n) := ⟨Vector.toList⟩

instance {α : Type} [Canonical α] : Canonical (Option α) where
  encode
    | none => [0]
    | some x => 1 :: encode x

instance {α : Type} [Canonical α] : Canonical (List α) where
  encode xs := lengthPrefix xs.length ++ xs.flatMap encode

end Canonical

end ManaWallet
