import ManaWallet.Identifier

/-!
# Address — what an output can be locked to

| kind | unlocked by |
|------|-------------|
| `ed25519`, `implicitAccountCreation` | a signature of the key with this digest |
| `account`, `anchor`, `nft` | unlocking the chain of this name in the same transaction |
| `multi` | a weighted set of addresses; no single unlock opens it |
| `restricted` | whatever the address inside requires |
-/

namespace ManaWallet

/-- The digest of an Ed25519 public key. -/
structure KeyHash where
  bytes : Bytes 32
deriving DecidableEq, Hashable

/-- The digest by which a public key is addressed. -/
def KeyHash.ofPublicKey (publicKey : Bytes 32) : KeyHash := ⟨blake3 publicKey.toList⟩

/-- What a restricted address may receive, one bit each. -/
structure AddressCapabilities where
  bits : UInt16
deriving DecidableEq

namespace AddressCapabilities

/-- All nine capabilities: native tokens, mana, outputs with a timelock, with an expiration or with a
storage deposit return, and account, anchor, collectible and delegation outputs. -/
def all : AddressCapabilities := ⟨0x1FF⟩

/-- Whether every bit of `flag` is granted. -/
def has (c : AddressCapabilities) (flag : UInt16) : Bool := c.bits &&& flag == flag

end AddressCapabilities

/-- An address. -/
inductive Address where
  | ed25519 (keyHash : KeyHash)
  | account (id : AccountId)
  | nft (id : NftId)
  | anchor (id : AnchorId)
  | implicitAccountCreation (keyHash : KeyHash)
  | multi (members : List (Address × UInt8)) (threshold : UInt16)
  | restricted (address : Address) (capabilities : AddressCapabilities)

/-- The kinds of addresses. -/
inductive AddressKind where
  | ed25519
  | account
  | nft
  | anchor
  | implicitAccountCreation
  | multi
  | restricted
deriving DecidableEq, Repr

/-- The word for a kind of address. -/
def AddressKind.text : AddressKind → String
  | ed25519 => "ed25519"
  | account => "account"
  | nft => "nft"
  | anchor => "anchor"
  | implicitAccountCreation => "implicit-account-creation"
  | multi => "multi"
  | restricted => "restricted"

/-- The address of a chain, where the chain can own outputs. -/
def ChainId.address? : ChainId → Option Address
  | account id => some (.account id)
  | anchor id => some (.anchor id)
  | nft id => some (.nft id)
  | foundry _ | delegation _ => none

namespace Address

/-- The kind of an address. -/
def kind : Address → AddressKind
  | ed25519 _ => .ed25519
  | account _ => .account
  | nft _ => .nft
  | anchor _ => .anchor
  | implicitAccountCreation _ => .implicitAccountCreation
  | multi _ _ => .multi
  | restricted _ _ => .restricted

/-- The address inside one layer of restriction; any other address as it is. -/
def unrestricted : Address → Address
  | restricted address _ => address
  | address => address

/-- The chain that an address names. -/
def chainId? : Address → Option ChainId
  | account id => some (.account id)
  | anchor id => some (.anchor id)
  | nft id => some (.nft id)
  | _ => none

/-- Whether a signature alone unlocks the address. -/
def isSigned : Address → Bool
  | ed25519 _ | implicitAccountCreation _ => true
  | _ => false

/-- The key that unlocks the address, or the address inside its restriction. -/
def keyHash? (a : Address) : Option KeyHash :=
  match a.unrestricted with
  | ed25519 keyHash | implicitAccountCreation keyHash => some keyHash
  | _ => none

/-! ## Bytes and order -/

mutual

/-- The canonical bytes of an address. -/
def toBytes : Address → List UInt8
  | ed25519 keyHash => Canonical.variant 0 ++ encode keyHash.bytes
  | account id => Canonical.variant 1 ++ encode id
  | nft id => Canonical.variant 2 ++ encode id
  | anchor id => Canonical.variant 3 ++ encode id
  | implicitAccountCreation keyHash => Canonical.variant 4 ++ encode keyHash.bytes
  | multi members threshold =>
    Canonical.variant 5 ++ (Canonical.lengthPrefix members.length ++ membersToBytes members)
      ++ encode threshold
  | restricted address capabilities =>
    Canonical.variant 6 ++ toBytes address ++ encode capabilities.bits

/-- The canonical bytes of weighted addresses, one after the other. -/
def membersToBytes : List (Address × UInt8) → List UInt8
  | [] => []
  | member :: rest => memberToBytes member ++ membersToBytes rest

/-- The canonical bytes of a weighted address. -/
def memberToBytes : Address × UInt8 → List UInt8
  | (address, weight) => toBytes address ++ encode weight

end

instance : Canonical Address := ⟨toBytes⟩

mutual

/-- The numbers an address is compared by. -/
def numbers : Address → List Nat
  | ed25519 keyHash => 0 :: byteKey keyHash.bytes
  | account id => 1 :: byteKey id.bytes
  | nft id => 2 :: byteKey id.bytes
  | anchor id => 3 :: byteKey id.bytes
  | implicitAccountCreation keyHash => 4 :: byteKey keyHash.bytes
  | multi members threshold => 5 :: (memberNumbers members ++ [threshold.toNat])
  | restricted address capabilities => 6 :: (numbers address ++ [capabilities.bits.toNat])

/-- The numbers weighted addresses are compared by: a one before each, a zero behind the last. -/
def memberNumbers : List (Address × UInt8) → List Nat
  | [] => [0]
  | member :: rest => 1 :: (weightedNumbers member ++ memberNumbers rest)

/-- The numbers a weighted address is compared by. -/
def weightedNumbers : Address × UInt8 → List Nat
  | (address, weight) => numbers address ++ [weight.toNat]

end

instance : SortKey Address := ⟨numbers⟩

end Address

end ManaWallet
