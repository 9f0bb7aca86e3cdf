import ManaWallet.Arithmetic.Checked
import ManaWallet.Arithmetic.Halves
import ManaWallet.Parameters.Protocol

/-!
# ManaSchedule — how much mana there is at a slot

    tokens, creation slot ──generate──▸ potential mana ─┐
    mana, creation slot ────decay───────▸ stored mana ──┴──▸ at the target slot

Tokens generate mana in every slot, and mana decays with every epoch that begins.  Potential mana over
many epochs is not summed up epoch by epoch: the epochs between the first and the last come from a
geometric series.
-/

namespace ManaWallet

/-- Why there is no amount of mana for a slot. -/
inductive ManaError where
  /-- The epoch of creation is after the epoch asked for. -/
  | wrongEpochIndex (creation target : EpochIndex)
  /-- The slot of creation is after the slot asked for. -/
  | wrongSlotIndex (creation target : SlotIndex)
  | arithmetic (error : ArithmeticError)
  | parameters (error : ParametersError)
deriving DecidableEq, Repr

/-- The report of a failure with mana. -/
def ManaError.message : ManaError → String
  | .wrongEpochIndex creation target => s!"Creation epoch {creation} is after target epoch {target}"
  | .wrongSlotIndex creation target => s!"Creation slot {creation} is after target slot {target}"
  | .arithmetic error => s!"Mana arithmetic failed: {error.message}"
  | .parameters error => s!"Invalid mana parameters: {error.message}"

/-- The refusal of decay factors over more than `2 ^ 32`. -/
def ManaError.wideFactors (p : ManaParameters) : ManaError :=
  .parameters (.invalidExponent "decay_factors_exponent" p.decayFactorsExponent)

/-- The constants of generation and decay on a clock.  The product of a decay factor and a half of a
value keeps its fraction in the lower half, so the factors are over `2 ^ 32` at most. -/
structure ManaSchedule where
  clock : SlotClock
  slotsPerEpochExponent : UInt8
  parameters : ManaParameters
  exponent_le : parameters.decayFactorsExponent ≤ 32

namespace ManaSchedule

/-- The schedule of some constants, if their decay factors are over `2 ^ 32` at most. -/
def ofParameters? (clock : SlotClock) (slotsPerEpochExponent : UInt8) (parameters : ManaParameters) :
    Except ManaError ManaSchedule :=
  if h : parameters.decayFactorsExponent ≤ 32 then
    .ok ⟨clock, slotsPerEpochExponent, parameters, h⟩
  else
    .error (.wideFactors parameters)

/-! ## Decay -/

/-- The halves of a value after a number of epochs that the table reaches. -/
def decayHalves (s : ManaSchedule) (epochs : Nat) (h : Halves) : Halves :=
  h.scaled (s.parameters.decayFactors.getD (epochs - 1) 0).toUInt64
    s.parameters.decayFactorsExponent.toUInt32

/-- What is left of a value after a number of epochs.  The table is gone through whole as often as it
fits, and then once to where the epochs end; an empty table means no decay. -/
def decay (s : ManaSchedule) (value : Mana) (epochs : EpochIndex) : Mana :=
  let length := s.parameters.decayFactors.size
  if value = 0 ∨ epochs = 0 ∨ length = 0 then value
  else
    let h := (epochs.toNat / length).repeat (s.decayHalves length) (Halves.ofValue value)
    let rest := epochs.toNat % length
    (if rest = 0 then h else s.decayHalves rest h).toValue

/-- What is left of mana from one epoch at the start of another. -/
def decayByEpochs (s : ManaSchedule) (mana : Mana) (creation target : EpochIndex) :
    Except ManaError Mana :=
  if target < creation then .error (.wrongEpochIndex creation target)
  else .ok (s.decay mana (target - creation))

/-- What is left of mana from one slot at another. -/
def decayBySlots (s : ManaSchedule) (mana : Mana) (creation target : SlotIndex) :
    Except ManaError Mana :=
  s.decayByEpochs mana (s.clock.epochOf creation) (s.clock.epochOf target)

/-! ## Generation -/

/-- The mana that tokens generate in a number of slots, if none of it decays. -/
def generate (s : ManaSchedule) (amount : BaseToken) (slots : SlotIndex) : Mana :=
  if slots = 0 ∨ s.parameters.generationRate = 0 then 0
  else
    scaledProduct amount (slots.toUInt64 * s.parameters.generationRate.toUInt64)
      s.parameters.generationRateExponent.toUInt32

/-- A checked result as one of mana. -/
def checked {α : Type} (x : Except ArithmeticError α) : Except ManaError α := x.mapError .arithmetic

/-- The power of two below the series' constant. -/
def seriesScale (s : ManaSchedule) : Except ArithmeticError UInt64 :=
  checkedSub
    (s.parameters.decayFactorEpochsSumExponent.toUInt64
      + s.parameters.generationRateExponent.toUInt64)
    s.slotsPerEpochExponent.toUInt64

/-- What all whole epochs together would leave of the tokens' mana, were there no end of them. -/
def seriesConstant (s : ManaSchedule) (amount : BaseToken) (scale : UInt64) : Mana :=
  scaledProduct amount
    (s.parameters.decayFactorEpochsSum.toUInt64 * s.parameters.generationRate.toUInt64)
    scale.toUInt32

/-- Mana generated from a slot to one of the epoch after its own: the slots before the boundary decay
once, those behind it do not. -/
def potentialOfNextEpoch (s : ManaSchedule) (amount : BaseToken) (creation target : SlotIndex) :
    Except ManaError Mana :=
  checked <| checkedAdd
    (s.decay (s.generate amount (s.clock.slotsBeforeNextEpoch creation)) 1)
    (s.generate amount (s.clock.slotsSinceEpochStart target))

/-- Mana generated from a slot to one that is `epochs` epochs later, two at least: the first and the
last epoch by their slots, those between by the series. -/
def potentialOfEpochs (s : ManaSchedule) (amount : BaseToken) (creation target : SlotIndex)
    (epochs : EpochIndex) : Except ManaError Mana := checked do
  let c := s.seriesConstant amount (← s.seriesScale)
  let first := s.decay (s.generate amount (s.clock.slotsBeforeNextEpoch creation)) epochs
  let between ← checkedSub c (s.decay c (epochs - 1))
  let last := s.generate amount (s.clock.slotsSinceEpochStart target)
  let total ← checkedAdd (← checkedAdd between last) first
  checkedSub total (c >>> s.parameters.decayFactorsExponent.toUInt64)

/-- The mana that tokens have generated from one slot to another and that has not decayed since. -/
def potential (s : ManaSchedule) (amount : BaseToken) (creation target : SlotIndex) :
    Except ManaError Mana :=
  let first := s.clock.epochOf creation
  let last := s.clock.epochOf target
  if last < first then .error (.wrongEpochIndex first last)
  else if last = first then
    if target < creation then .error (.wrongSlotIndex creation target)
    else .ok (s.generate amount (target - creation))
  else if last - first = 1 then s.potentialOfNextEpoch amount creation target
  else s.potentialOfEpochs amount creation target (last - first)

end ManaSchedule

end ManaWallet
