import ManaWallet.ManaSchedule

/-!
# Protocol — a network's constants in force

Constants that passed validation and whose decay factors the schedule of mana can work with.
-/

namespace ManaWallet

/-- A network's constants in force. -/
structure Protocol where
  parameters : ProtocolParameters
  valid : parameters.validate = .ok ()
  exponent_le : parameters.manaParameters.decayFactorsExponent ≤ 32

namespace Protocol

/-- Puts constants in force, if they can be used. -/
def ofParameters? (p : ProtocolParameters) : Except ManaError Protocol :=
  match valid : p.validate with
  | .error e => .error (.parameters e)
  | .ok () =>
    if h : p.manaParameters.decayFactorsExponent ≤ 32 then .ok ⟨p, valid, h⟩
    else .error (.wideFactors p.manaParameters)

/-- The clock of the network. -/
def clock (p : Protocol) : SlotClock := p.parameters.clock

/-- The schedule of mana on the network. -/
def schedule (p : Protocol) : ManaSchedule where
  clock := p.clock
  slotsPerEpochExponent := p.parameters.slotsPerEpochExponent
  parameters := p.parameters.manaParameters
  exponent_le := p.exponent_le

end Protocol

end ManaWallet
