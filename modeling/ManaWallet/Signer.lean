import ManaWallet.Address
import ManaWallet.Ed25519.Signature
import ManaWallet.Unlock
import Std.Data.HashMap

/-!
# Signer — who signs for an address

A draft never holds secrets: it asks a signer, which is given by its three answers.  A key ring is a
signer that holds key pairs; all addresses of one key, plain, implicit or restricted, are the same to it.
-/

namespace ManaWallet

/-- Why a signer does not sign. -/
inductive SignerError where
  /-- No signature unlocks addresses of this kind. -/
  | unsupportedAddress (kind : AddressKind)
  /-- No key is held for an address, or for what tells its key apart. -/
  | keyNotFound (address : String)
  /-- What keeps the keys has failed. -/
  | backend (report : String)
deriving DecidableEq

/-- The report of a signer's failure. -/
def SignerError.message : SignerError → String
  | .unsupportedAddress kind => s!"Signer does not support {kind.text} addresses"
  | .keyNotFound address => s!"No key for address {address}"
  | .backend report => s!"Signer failure: {report}"

/-- What a draft asks of the holder of keys. -/
structure Signer where
  /-- Who signs for an address; two addresses of one signer need one signature. -/
  uid : Address → Except SignerError SignerUid
  /-- The signature of a message. -/
  sign : Address → List UInt8 → Except SignerError Signature
  /-- A signature without contents, of the size and key of the real one. -/
  placeholder : Address → Except SignerError Signature

/-- Key pairs by the digest of their public keys. -/
structure KeyRing where
  keys : Std.HashMap KeyHash Ed25519.KeyPair := ∅
  keyed : ∀ key pair, keys[key]? = some pair → KeyHash.ofPublicKey pair.publicKey = key := by simp

namespace KeyRing

/-- Adds a key pair. -/
def add (ring : KeyRing) (pair : Ed25519.KeyPair) : KeyRing where
  keys := ring.keys.insert (.ofPublicKey pair.publicKey) pair
  keyed := by
    intro key found h
    rw [Std.HashMap.getElem?_insert] at h
    split at h
    · next heq =>
      obtain rfl := Option.some.inj h
      exact eq_of_beq heq
    · exact ring.keyed key found h

/-- The key pairs of some seeds. -/
def ofSeeds (seeds : List (Bytes 32)) : KeyRing :=
  seeds.foldl (fun ring seed => ring.add ⟨seed⟩) {}

/-- The number of key pairs. -/
def size (ring : KeyRing) : Nat := ring.keys.size

/-- The key that unlocks an address. -/
def keyHash (address : Address) : Except SignerError KeyHash :=
  match address.keyHash? with
  | some keyHash => .ok keyHash
  | none => .error (.unsupportedAddress address.unrestricted.kind)

/-- The key pair that unlocks an address. -/
def pairFor (ring : KeyRing) (address : Address) : Except SignerError Ed25519.KeyPair := do
  let key ← keyHash address
  match ring.keys[key]? with
  | some pair => return pair
  | none => throw (.keyNotFound (SignerUid.mk key.bytes).text)

/-- The signer that holds the keys of a ring. -/
def signer (ring : KeyRing) : Signer where
  uid address := (keyHash address).map fun key => ⟨key.bytes⟩
  sign address message := (ring.pairFor address).map fun pair =>
    ⟨pair.publicKey, pair.sign message⟩
  placeholder address := (ring.pairFor address).map fun pair => .placeholder pair.publicKey

end KeyRing

end ManaWallet
