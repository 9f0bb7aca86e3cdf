import ManaWallet.Parameters.Mana

/-!
# Parameters/Derivation — a decay table from a yearly rate

Mana decays continuously, by the power `-betaPerYear` of Euler's number a year.  The table holds the
share left at the end of each whole epoch of a year.  All figures are binary64 numbers; a share becomes a
whole number by cutting off its fraction, and one out of the 32-bit range by the nearest end of it.
-/

namespace ManaWallet

/-- What a decay table is made from. -/
structure ManaDerivation where
  betaPerYear : Float := 1.0 / 3.0
  slotSeconds : UInt16 := 10
  slotsPerEpochExponent : UInt8 := 13
  generationRate : UInt8 := 1
  generationRateExponent : UInt8 := 17
  decayFactorsExponent : UInt8 := 32
  decayFactorEpochsSumExponent : UInt8 := 21
  annualDecayFactorPercentage : UInt8 := 70

namespace ManaDerivation

/-- Seconds in a year of 365 days. -/
def secondsPerYear : Float := 31536000

/-- A power of two, for exponents below 1024. -/
def powerOfTwo (exponent : UInt8) : Float := Float.ofNat (1 <<< exponent.toNat)

/-- Slots in an epoch. -/
def slotsPerEpoch (d : ManaDerivation) : Float := powerOfTwo d.slotsPerEpochExponent

/-- Seconds in a slot. -/
def slotLength (d : ManaDerivation) : Float := Float.ofNat d.slotSeconds.toNat

/-- Epochs in a year. -/
def epochsPerYear (d : ManaDerivation) : Float := secondsPerYear / d.slotLength / d.slotsPerEpoch

/-- The share left after a number of epochs, over `2 ^ decayFactorsExponent`. -/
def decayFactor (d : ManaDerivation) (epochs : Nat) : UInt32 :=
  let betaPerEpoch := d.betaPerYear / d.epochsPerYear
  (Float.exp (-betaPerEpoch * Float.ofNat epochs) * powerOfTwo d.decayFactorsExponent).toUInt32

/-- The sum of the shares left after each number of epochs, a geometric series, over
`2 ^ decayFactorEpochsSumExponent`. -/
def epochsSum (d : ManaDerivation) : UInt32 :=
  let yearsPerEpoch := d.slotsPerEpoch * d.slotLength / secondsPerYear
  let share := Float.exp (-d.betaPerYear * yearsPerEpoch)
  (share / (1.0 - share) * powerOfTwo d.decayFactorEpochsSumExponent).toUInt32

end ManaDerivation

/-- The constants of generation and decay with the table of a yearly rate. -/
def ManaParameters.derive (d : ManaDerivation) : ManaParameters where
  bitsCount := 63
  generationRate := d.generationRate
  generationRateExponent := d.generationRateExponent
  decayFactors := Array.ofFn fun i : Fin d.epochsPerYear.toUInt32.toNat => d.decayFactor (i.val + 1)
  decayFactorsExponent := d.decayFactorsExponent
  decayFactorEpochsSum := d.epochsSum
  decayFactorEpochsSumExponent := d.decayFactorEpochsSumExponent
  annualDecayFactorPercentage := d.annualDecayFactorPercentage

end ManaWallet
