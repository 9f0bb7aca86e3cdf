import ManaWallet.Canonical

/-!
# Unlock — what authorizes an input of a transaction

An input is unlocked by a signature of its own, or by pointing to an earlier input: to one that the same
key has signed, or to one that unlocked the chain owning it.
-/

namespace ManaWallet

/-- An Ed25519 signature with the key it is checked with. -/
structure Signature where
  publicKey : Bytes 32
  bytes : Bytes 64
deriving DecidableEq

namespace Signature

/-- A signature without contents, of the same size as a real one. -/
def placeholder (publicKey : Bytes 32) : Signature := ⟨publicKey, .zero 64⟩

/-- Whether a signature is without contents. -/
def isPlaceholder (s : Signature) : Bool := s.bytes == .zero 64

/-- Ed25519 is the only kind of signature, and has the number zero; the signature's own bytes stand
behind their length. -/
instance : Canonical Signature where
  encode s := Canonical.variant 0 ++ encode s.publicKey ++ encode s.bytes.toList

end Signature

/-- The unlock of one input. -/
inductive Unlock where
  | signature (signature : Signature)
  /-- The key that signed an earlier input. -/
  | reference (index : UInt16)
  /-- The account that an earlier input unlocked. -/
  | account (index : UInt16)
  /-- The anchor that an earlier input unlocked. -/
  | anchor (index : UInt16)
  /-- The collectible that an earlier input unlocked. -/
  | nft (index : UInt16)
deriving DecidableEq

namespace Unlock

/-- Whether the input has a signature of its own. -/
def isSignature : Unlock → Bool
  | signature _ => true
  | _ => false

/-- The earlier input that an unlock points to. -/
def index? : Unlock → Option UInt16
  | signature _ => none
  | reference index | account index | anchor index | nft index => some index

instance : Canonical Unlock where
  encode
    | signature s => Canonical.variant 0 ++ encode s
    | reference index => Canonical.variant 1 ++ encode index
    | account index => Canonical.variant 2 ++ encode index
    | anchor index => Canonical.variant 3 ++ encode index
    | nft index => Canonical.variant 4 ++ encode index

end Unlock

end ManaWallet
