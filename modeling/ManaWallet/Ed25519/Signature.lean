import ManaWallet.Digest.Sha512
import ManaWallet.Ed25519.Curve

/-!
# Ed25519/Signature — key pairs, signing and verification

Signing takes its nonce from the key and the message, so that signing twice gives the same signature.
Verification recomputes the first half of a signature from the second and compares bytes; keys of small
order are not singled out.
-/

namespace ManaWallet.Ed25519

/-- What can be wrong with key material or a signature. -/
inductive KeyError where
  | verificationFailed
  | invalidPublicKey
  | seedLength (found : Nat)
deriving DecidableEq, Repr

/-- The report of a key or signature failure. -/
def KeyError.message : KeyError → String
  | .verificationFailed => "Signature verification failed"
  | .invalidPublicKey => "Invalid public key"
  | .seedLength found => s!"Invalid seed length: expected 32, got {found}"

/-- A number below the group's order, drawn from the digest of some bytes. -/
def scalarOfDigest (bytes : List UInt8) : Nat := ofLittleEndian (sha512 bytes) % groupOrder

/-! ## Key pairs -/

/-- A key pair is its seed; all its numbers are drawn from the seed's digest. -/
structure KeyPair where
  seed : Bytes 32
deriving DecidableEq

namespace KeyPair

/-- The key pair of a seed whose length is still to be checked. -/
def ofSeed? (seed : List UInt8) : Except KeyError KeyPair :=
  match Bytes.ofList? 32 seed with
  | some seed => .ok ⟨seed⟩
  | none => .error (.seedLength seed.length)

/-- The number held by 32 bytes: bit 254 is set, the bit above it and the lowest three are cleared. -/
def clamp (bytes : List UInt8) : Nat :=
  let number := ofLittleEndian bytes % (1 <<< 254)
  (1 <<< 254) + (number - number % 8)

/-- The secret multiple. -/
def scalar (k : KeyPair) : Nat := clamp ((sha512 k.seed.toList).take 32)

/-- The secret that nonces are made from. -/
def nonceSecret (k : KeyPair) : List UInt8 := (sha512 k.seed.toList).drop 32

/-- The public key: the secret multiple of the base point. -/
def publicKey (k : KeyPair) : Bytes 32 := (Point.base.multiple k.scalar).encode

/-- The signature of a message. -/
def sign (k : KeyPair) (message : List UInt8) : Bytes 64 :=
  let nonce := scalarOfDigest (k.nonceSecret ++ message)
  let commitment := (Point.base.multiple nonce).encode
  let challenge := scalarOfDigest (commitment.toList ++ (k.publicKey.toList ++ message))
  let response := (nonce + challenge * k.scalar) % groupOrder
  commitment ++ Bytes.ofNat 32 response

end KeyPair

/-! ## Verification -/

/-- Key bytes that stand for a point of the curve, and that point. -/
structure PublicKey where
  bytes : Bytes 32
  point : Point
  decodes : Point.decode? bytes = some point

/-- The public key of some bytes, if they stand for a point. -/
def PublicKey.ofBytes? (bytes : Bytes 32) : Except KeyError PublicKey :=
  match h : Point.decode? bytes with
  | some point => .ok ⟨bytes, point, h⟩
  | none => .error .invalidPublicKey

/-- Whether a signature of a message was made with the secret of this key: its second half is below the
group's order, and with it the key and the message give back its first half. -/
def PublicKey.verifies (k : PublicKey) (message : List UInt8) (signature : Bytes 64) : Bool :=
  let commitment := signature.toList.take 32
  let response := ofLittleEndian (signature.toList.drop 32)
  let challenge := scalarOfDigest (commitment ++ (k.bytes.toList ++ message))
  let recomputed := Point.base.multiple response + (-k.point).multiple challenge
  decide (response < groupOrder) && recomputed.encode.toList == commitment

/-- Accepts a signature or says that it is refused. -/
def PublicKey.verify (k : PublicKey) (message : List UInt8) (signature : Bytes 64) :
    Except KeyError Unit :=
  if k.verifies message signature then .ok () else .error .verificationFailed

end ManaWallet.Ed25519
