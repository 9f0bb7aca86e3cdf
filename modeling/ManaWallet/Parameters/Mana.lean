import ManaWallet.Parameters.YearlyDecay

/-!
# Parameters/Mana — the constants of generation and decay

Held base tokens generate mana every slot, and stored mana decays every epoch.  Fractions are written
as whole numbers over a power of two: a rate over `2 ^ generationRateExponent`, the share of mana left
after `n` epochs as the `n`-th decay factor over `2 ^ decayFactorsExponent`.
-/

namespace ManaWallet

/-- The constants of generation and decay. -/
structure ManaParameters where
  bitsCount : UInt8
  generationRate : UInt8
  generationRateExponent : UInt8
  /-- The factors for one epoch, for two epochs, and so on. -/
  decayFactors : Array UInt32
  decayFactorsExponent : UInt8
  /-- The sum of the shares left after each number of epochs. -/
  decayFactorEpochsSum : UInt32
  decayFactorEpochsSumExponent : UInt8
  annualDecayFactorPercentage : UInt8
deriving DecidableEq, Repr

/-- The constants that apply where nothing else is set: one unit of mana per `2 ^ 17` tokens and slot,
and the yearly table of decay factors. -/
def ManaParameters.standard : ManaParameters where
  bitsCount := 63
  generationRate := 1
  generationRateExponent := 17
  decayFactors := yearlyDecayFactors
  decayFactorsExponent := 32
  decayFactorEpochsSum := 2420916375
  decayFactorEpochsSumExponent := 21
  annualDecayFactorPercentage := 70

end ManaWallet
