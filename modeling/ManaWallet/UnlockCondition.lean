import ManaWallet.Address

/-!
# UnlockCondition — under which conditions an output may be consumed
-/

namespace ManaWallet

/-- An amount that consuming an output has to pay back. -/
structure StorageDepositReturn where
  returnAddress : Address
  amount : BaseToken

/-- From which slot on an output belongs to somebody else. -/
structure Expiration where
  returnAddress : Address
  slot : SlotIndex

/-- The conditions of an output, at most one of a kind. -/
structure UnlockConditions where
  address : Option Address := none
  storageDepositReturn : Option StorageDepositReturn := none
  /-- The slot up to which an output stays locked. -/
  timelock : Option SlotIndex := none
  expiration : Option Expiration := none
  stateControllerAddress : Option Address := none
  governorAddress : Option Address := none
  immutableAccountAddress : Option Address := none

instance : Canonical StorageDepositReturn := ⟨fun r => encode r.returnAddress ++ encode r.amount⟩
instance : Canonical Expiration := ⟨fun e => encode e.returnAddress ++ encode e.slot⟩

namespace UnlockConditions

/-- The conditions of an output that is only locked to an address. -/
def ofAddress (address : Address) : UnlockConditions := { address := some address }

/-- Whether the output stays locked at least up to `slot`. -/
def isLockedUntil (c : UnlockConditions) (slot : SlotIndex) : Bool :=
  c.timelock.any fun locked => slot ≤ locked

/-- How many conditions there are. -/
def count (c : UnlockConditions) : Nat :=
  [c.address.isSome, c.storageDepositReturn.isSome, c.timelock.isSome, c.expiration.isSome,
    c.stateControllerAddress.isSome, c.governorAddress.isSome,
    c.immutableAccountAddress.isSome].count true

instance : Canonical UnlockConditions where
  encode c :=
    encode c.address ++ encode c.storageDepositReturn ++ encode c.timelock ++ encode c.expiration
      ++ encode c.stateControllerAddress ++ encode c.governorAddress
      ++ encode c.immutableAccountAddress

end UnlockConditions

end ManaWallet
