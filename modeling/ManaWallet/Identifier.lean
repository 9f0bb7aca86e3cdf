import ManaWallet.Canonical
import ManaWallet.Digest.Blake3
import ManaWallet.Order
import ManaWallet.Slot.Clock

/-!
# Identifier — names of transactions, outputs and chains

A chain is a sequence of outputs that carry one name.  The output that opens a chain carries the empty
name, all zeros; from then on the chain is named by the digest of that output's own identifier.
-/

namespace ManaWallet

/-- Mana is counted in whole units of 64 bits. -/
abbrev Mana := UInt64

/-- Base tokens are counted in whole units of 64 bits. -/
abbrev BaseToken := UInt64

/-- The numbers a byte string is compared by. -/
def byteKey {n : Nat} (bytes : Bytes n) : List Nat := bytes.toList.map UInt8.toNat

/-! ## Transactions and outputs -/

/-- The name of a transaction: its digest and the slot it was made for. -/
structure TransactionId where
  hash : Bytes 32
  slot : SlotIndex
deriving DecidableEq, Hashable

/-- The name of an output: the transaction that made it and its place there. -/
structure OutputId where
  transactionId : TransactionId
  index : UInt16
deriving DecidableEq, Hashable

/-- The name of a slot commitment. -/
structure CommitmentId where
  hash : Bytes 32
  slot : SlotIndex
deriving DecidableEq

/-- What tells signing keys apart. -/
structure SignerUid where
  bytes : Bytes 32
deriving DecidableEq, Hashable

/-- A transaction's name in text: its digest, then the slot. -/
def TransactionId.text (i : TransactionId) : String :=
  s!"{prefixedHex i.hash.toList}@{i.slot}"

/-- An output's name in text: its transaction's name, then its place. -/
def OutputId.text (i : OutputId) : String := s!"{i.transactionId.text}:{i.index}"

/-- A signer's name in text. -/
def SignerUid.text (i : SignerUid) : String := prefixedHex i.bytes.toList

instance : Canonical TransactionId := ⟨fun i => encode i.hash ++ encode i.slot⟩
instance : Canonical OutputId := ⟨fun i => encode i.transactionId ++ encode i.index⟩
instance : Canonical CommitmentId := ⟨fun i => encode i.hash ++ encode i.slot⟩

instance : SortKey OutputId where
  sortKey i := byteKey i.transactionId.hash ++ [i.transactionId.slot.toNat, i.index.toNat]

instance : SortKey CommitmentId := ⟨fun i => byteKey i.hash ++ [i.slot.toNat]⟩

/-- The slot in which an output was made. -/
def OutputId.creationSlot (i : OutputId) : SlotIndex := i.transactionId.slot

/-! ## Chains -/

/-- The chains that are named by a digest. -/
inductive ChainKind where
  | account
  | anchor
  | nft
  | delegation
deriving DecidableEq, Repr

/-- The name of a chain of a kind. -/
structure ChainName (kind : ChainKind) where
  bytes : Bytes 32
deriving DecidableEq, Hashable

/-- The name of an account. -/
abbrev AccountId := ChainName .account

/-- The name of an anchor. -/
abbrev AnchorId := ChainName .anchor

/-- The name of a collectible. -/
abbrev NftId := ChainName .nft

/-- The name of a delegation. -/
abbrev DelegationId := ChainName .delegation

namespace ChainName

variable {kind : ChainKind}

/-- The name of a chain that its first output is still to give one. -/
def empty : ChainName kind := ⟨.zero 32⟩

/-- Whether a chain has no name yet. -/
def isEmpty (name : ChainName kind) : Bool := name == empty

/-- The name of the chain that an output opens. -/
def ofOutputId (id : OutputId) : ChainName kind := ⟨blake3 (encode id)⟩

/-- A name as it is, and for the empty one the name that the output opens. -/
def orOfOutputId (name : ChainName kind) (id : OutputId) : ChainName kind :=
  if name.isEmpty then ofOutputId id else name

/-- The name of zeros gives way to the digest of the output's name, and no other does. -/
theorem orOfOutputId_eq (name : ChainName kind) (id : OutputId) :
    name.orOfOutputId id = if name = ⟨.zero 32⟩ then ⟨blake3 (encode id)⟩ else name := by
  simp [orOfOutputId, isEmpty, empty, ofOutputId]

/-- A chain's name in text. -/
def text (name : ChainName kind) : String := prefixedHex name.bytes.toList

instance : Canonical (ChainName kind) := ⟨fun name => encode name.bytes⟩

instance : Ord (ChainName kind) := ⟨compareOn ChainName.bytes⟩

instance : Std.TransOrd (ChainName kind) :=
  inferInstanceAs (Std.TransCmp (compareOn ChainName.bytes))

instance : Std.LawfulEqOrd (ChainName kind) where
  eq_of_compare {a b} h := by
    obtain ⟨a⟩ := a
    obtain ⟨b⟩ := b
    exact congrArg _ (Std.compare_eq_iff_eq.mp h)

end ChainName

/-- The name of a foundry: the account it belongs to, its number there and the kind of its tokens. -/
structure FoundryId where
  accountId : AccountId
  serialNumber : UInt32
  tokenSchemeKind : UInt8
deriving DecidableEq, Hashable

/-- The name of a chain of any kind. -/
inductive ChainId where
  | account (id : AccountId)
  | anchor (id : AnchorId)
  | nft (id : NftId)
  | foundry (id : FoundryId)
  | delegation (id : DelegationId)
deriving DecidableEq, Hashable

namespace ChainId

/-- Whether the chain can own outputs. -/
def isAddressable : ChainId → Bool
  | account _ | anchor _ | nft _ => true
  | foundry _ | delegation _ => false

/-- Whether the chain has no name yet; a foundry always has one. -/
def isEmpty : ChainId → Bool
  | account id => id.isEmpty
  | anchor id => id.isEmpty
  | nft id => id.isEmpty
  | foundry _ => false
  | delegation id => id.isEmpty

/-- The name as it is, and for an empty one the name that the output opens. -/
def orOfOutputId (chain : ChainId) (id : OutputId) : ChainId :=
  match chain with
  | account name => account (name.orOfOutputId id)
  | anchor name => anchor (name.orOfOutputId id)
  | nft name => nft (name.orOfOutputId id)
  | foundry name => foundry name
  | delegation name => delegation (name.orOfOutputId id)

/-- A chain's kind and name in text. -/
def text : ChainId → String
  | account id => s!"account {id.text}"
  | anchor id => s!"anchor {id.text}"
  | nft id => s!"nft {id.text}"
  | foundry id => s!"foundry {id.accountId.text}/{id.serialNumber}"
  | delegation id => s!"delegation {id.text}"

instance : SortKey ChainId where
  sortKey
    | account id => 0 :: byteKey id.bytes
    | anchor id => 1 :: byteKey id.bytes
    | nft id => 2 :: byteKey id.bytes
    | foundry id =>
      3 :: (byteKey id.accountId.bytes ++ [id.serialNumber.toNat, id.tokenSchemeKind.toNat])
    | delegation id => 4 :: byteKey id.bytes

end ChainId

end ManaWallet
