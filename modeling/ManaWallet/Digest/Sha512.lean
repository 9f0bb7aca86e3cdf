import ManaWallet.Bytes

/-!
# Digest/Sha512 — the 64-byte digest inside the signature scheme

A message is filled up to whole blocks of 128 bytes, the last sixteen holding its length in bits.  The
blocks are compressed one after the other into eight 64-bit words, written most significant byte first.
-/

namespace ManaWallet

namespace Sha512

/-- The first 64 fractional bits of the cube roots of the first eighty primes. -/
def roundConstants : Array UInt64 :=
  #[0x428A2F98D728AE22, 0x7137449123EF65CD, 0xB5C0FBCFEC4D3B2F, 0xE9B5DBA58189DBBC,
   0x3956C25BF348B538, 0x59F111F1B605D019, 0x923F82A4AF194F9B, 0xAB1C5ED5DA6D8118,
   0xD807AA98A3030242, 0x12835B0145706FBE, 0x243185BE4EE4B28C, 0x550C7DC3D5FFB4E2,
   0x72BE5D74F27B896F, 0x80DEB1FE3B1696B1, 0x9BDC06A725C71235, 0xC19BF174CF692694,
   0xE49B69C19EF14AD2, 0xEFBE4786384F25E3, 0x0FC19DC68B8CD5B5, 0x240CA1CC77AC9C65,
   0x2DE92C6F592B0275, 0x4A7484AA6EA6E483, 0x5CB0A9DCBD41FBD4, 0x76F988DA831153B5,
   0x983E5152EE66DFAB, 0xA831C66D2DB43210, 0xB00327C898FB213F, 0xBF597FC7BEEF0EE4,
   0xC6E00BF33DA88FC2, 0xD5A79147930AA725, 0x06CA6351E003826F, 0x142929670A0E6E70,
   0x27B70A8546D22FFC, 0x2E1B21385C26C926, 0x4D2C6DFC5AC42AED, 0x53380D139D95B3DF,
   0x650A73548BAF63DE, 0x766A0ABB3C77B2A8, 0x81C2C92E47EDAEE6, 0x92722C851482353B,
   0xA2BFE8A14CF10364, 0xA81A664BBC423001, 0xC24B8B70D0F89791, 0xC76C51A30654BE30,
   0xD192E819D6EF5218, 0xD69906245565A910, 0xF40E35855771202A, 0x106AA07032BBD1B8,
   0x19A4C116B8D2D0C8, 0x1E376C085141AB53, 0x2748774CDF8EEB99, 0x34B0BCB5E19B48A8,
   0x391C0CB3C5C95A63, 0x4ED8AA4AE3418ACB, 0x5B9CCA4F7763E373, 0x682E6FF3D6B2B8A3,
   0x748F82EE5DEFB2FC, 0x78A5636F43172F60, 0x84C87814A1F0AB72, 0x8CC702081A6439EC,
   0x90BEFFFA23631E28, 0xA4506CEBDE82BDE9, 0xBEF9A3F7B2C67915, 0xC67178F2E372532B,
   0xCA273ECEEA26619C, 0xD186B8C721C0C207, 0xEADA7DD6CDE0EB1E, 0xF57D4F7FEE6ED178,
   0x06F067AA72176FBA, 0x0A637DC5A2C898A6, 0x113F9804BEF90DAE, 0x1B710B35131C471B,
   0x28DB77F523047D84, 0x32CAAB7B40C72493, 0x3C9EBE0A15C9BEBC, 0x431D67C49C100D4C,
   0x4CC5D4BECB3E42B6, 0x597F299CFC657E2A, 0x5FCB6FAB3AD6FAEC, 0x6C44198C4A475817]

/-- The eight working words of a compression. -/
structure Words where
  a : UInt64
  b : UInt64
  c : UInt64
  d : UInt64
  e : UInt64
  f : UInt64
  g : UInt64
  h : UInt64

/-- The first 64 fractional bits of the square roots of the first eight primes. -/
def start : Words where
  a := 0x6A09E667F3BCC908
  b := 0xBB67AE8584CAA73B
  c := 0x3C6EF372FE94F82B
  d := 0xA54FF53A5F1D36F1
  e := 0x510E527FADE682D1
  f := 0x9B05688C2B3E6C1F
  g := 0x1F83D9ABFB41BD6B
  h := 0x5BE0CD19137E2179

/-- The eight words in order. -/
def Words.toList (w : Words) : List UInt64 := [w.a, w.b, w.c, w.d, w.e, w.f, w.g, w.h]

/-- Adds two rows of words place by place. -/
def Words.add (x y : Words) : Words :=
  ⟨x.a + y.a, x.b + y.b, x.c + y.c, x.d + y.d, x.e + y.e, x.f + y.f, x.g + y.g, x.h + y.h⟩

/-- Turns the bits of a word to the right. -/
@[inline] def turnBits (n : UInt64) (x : UInt64) : UInt64 := (x >>> n) ||| (x <<< (64 - n))

/-- One round with a schedule word and a round constant. -/
def Words.round (w : Words) (word constant : UInt64) : Words :=
  let s₁ := turnBits 14 w.e ^^^ turnBits 18 w.e ^^^ turnBits 41 w.e
  let choice := (w.e &&& w.f) ^^^ (~~~w.e &&& w.g)
  let t₁ := w.h + s₁ + choice + constant + word
  let s₀ := turnBits 28 w.a ^^^ turnBits 34 w.a ^^^ turnBits 39 w.a
  let majority := (w.a &&& w.b) ^^^ (w.a &&& w.c) ^^^ (w.b &&& w.c)
  ⟨t₁ + (s₀ + majority), w.a, w.b, w.c, w.d + t₁, w.e, w.f, w.g⟩

/-- A number read from bytes, the first being the most significant. -/
def ofBigEndian (bytes : List UInt8) : UInt64 :=
  bytes.foldl (fun n b => (n <<< 8) ||| b.toUInt64) 0

/-- The bytes of a number in the given width, the most significant first. -/
def bigEndian (width n : Nat) : List UInt8 := (littleEndian width n).reverse

/-- The sixteen words of a block. -/
def blockWords (block : List UInt8) : Array UInt64 :=
  ((List.range 16).map fun i => ofBigEndian ((block.drop (8 * i)).take 8)).toArray

/-- The next schedule word, made from four of the words before it. -/
def nextWord (schedule : Array UInt64) : UInt64 :=
  let word (back : Nat) : UInt64 := schedule.getD (schedule.size - back) 0
  let near := word 2
  let far := word 15
  (turnBits 19 near ^^^ turnBits 61 near ^^^ (near >>> 6)) + word 7 +
    (turnBits 1 far ^^^ turnBits 8 far ^^^ (far >>> 7)) + word 16

/-- The eighty words that a block enters its rounds with. -/
def schedule (block : List UInt8) : Array UInt64 :=
  (List.range 64).foldl (fun words _ => words.push (nextWord words)) (blockWords block)

/-- The words after a further block. -/
def compress (w : Words) (block : List UInt8) : Words :=
  w.add (((schedule block).toList.zip roundConstants.toList).foldl
    (fun w step => w.round step.1 step.2) w)

/-- What follows a message of the given length: a one bit, zeros up to a whole block, the length. -/
def padding (length : Nat) : List UInt8 :=
  0x80 :: List.replicate ((239 - length % 128) % 128) 0 ++ bigEndian 16 (8 * length)

/-- Compresses the given number of blocks from the front of a list. -/
def compressBlocks : Nat → Words → List UInt8 → Words
  | 0, w, _ => w
  | n + 1, w, bytes => compressBlocks n (compress w (bytes.take 128)) (bytes.drop 128)

end Sha512

/-- The SHA-512 digest of a message. -/
def sha512 (message : List UInt8) : List UInt8 :=
  let padded := message ++ Sha512.padding message.length
  (Sha512.compressBlocks (padded.length / 128) Sha512.start padded).toList.flatMap fun word =>
    Sha512.bigEndian 8 word.toNat

end ManaWallet
