/-!
# Slot/Clock — wall-clock time, slots and epochs

    time ──slotAt──▸ slot ──epochOf──▸ epoch
    time ◂─startOf── slot ◂─epochStart── epoch

Slot `genesisSlot + 1` starts at the genesis time; every slot lasts `slotSeconds`, and an epoch holds
`2 ^ slotsPerEpochExponent` slots.  A slot before the genesis slot belongs to epoch 0.  Slots and
epochs are 32-bit words: where the last epoch runs past the last slot, its bounds wrap.
-/

namespace ManaWallet

/-- The number of a slot. -/
abbrev SlotIndex := UInt32

/-- The number of an epoch. -/
abbrev EpochIndex := UInt32

/-- The four constants that place slots and epochs in time. -/
structure SlotClock where
  genesisSlot : SlotIndex
  /-- Seconds of the Unix clock at which the first slot after the genesis slot starts. -/
  genesisTime : Int64
  slotSeconds : UInt16
  slotsPerEpochExponent : UInt8
deriving DecidableEq, Repr

namespace SlotClock

/-- Slots in one epoch. -/
def slotsPerEpoch (c : SlotClock) : UInt64 := 1 <<< c.slotsPerEpochExponent.toUInt64

/-- Seconds in one epoch. -/
def epochSeconds (c : SlotClock) : UInt64 := c.slotsPerEpoch * c.slotSeconds.toUInt64

/-- The slot that a time falls into: the genesis slot for every time before the first slot, the last
slot there is for every time past it. -/
def slotAt (c : SlotClock) (time : Int64) : SlotIndex :=
  let elapsed := time.toInt - c.genesisTime.toInt
  if elapsed < 0 ∨ c.slotSeconds = 0 then c.genesisSlot
  else .ofNat (min (c.genesisSlot.toNat + elapsed.toNat / c.slotSeconds.toNat + 1) (UInt32.size - 1))

/-- The time at which a slot starts, or the latest time there is where that lies beyond it.  The
genesis slot and all before it have no start of their own and share the genesis time. -/
def startOf (c : SlotClock) (slot : SlotIndex) : Int64 :=
  if slot ≤ c.genesisSlot then c.genesisTime
  else
    let elapsed := (slot.toNat - c.genesisSlot.toNat - 1) * c.slotSeconds.toNat
    .ofInt (min (c.genesisTime.toInt + elapsed) Int64.maxValue.toInt)

/-- The epoch that a slot belongs to. -/
def epochOf (c : SlotClock) (slot : SlotIndex) : EpochIndex :=
  if slot < c.genesisSlot then 0
  else (slot - c.genesisSlot) >>> c.slotsPerEpochExponent.toUInt32

/-- The first slot of an epoch. -/
def epochStart (c : SlotClock) (epoch : EpochIndex) : SlotIndex :=
  c.genesisSlot + (epoch <<< c.slotsPerEpochExponent.toUInt32)

/-- The last slot of an epoch. -/
def epochEnd (c : SlotClock) (epoch : EpochIndex) : SlotIndex := c.epochStart (epoch + 1) - 1

/-- Slots from a slot, itself included, to the next epoch; none before the genesis slot. -/
def slotsBeforeNextEpoch (c : SlotClock) (slot : SlotIndex) : SlotIndex :=
  if slot < c.genesisSlot then 0 else c.epochStart (c.epochOf slot + 1) - slot

/-- Slots of a slot's epoch that come before it; none before the genesis slot. -/
def slotsSinceEpochStart (c : SlotClock) (slot : SlotIndex) : SlotIndex :=
  if slot < c.genesisSlot then 0 else slot - c.epochStart (c.epochOf slot)

end SlotClock

end ManaWallet
