import ManaWallet.Digest.Blake3
import ManaWallet.Parameters.Mana
import ManaWallet.Slot.Clock
import ManaWallet.WorkScore

/-!
# Parameters/Protocol — the constants of a network

All parties of a network run with the same constants.  `validate` names the first of them that the
fixed-point arithmetic of mana could not work with.
-/

namespace ManaWallet

/-- The constants of a network. -/
structure ProtocolParameters where
  version : UInt8 := 3
  networkName : String := "testnet"
  bech32Hrp : String := "rms"
  tokenSupply : BaseToken := 1813620509061365
  genesisSlot : SlotIndex := 0
  genesisUnixTimestamp : Int64 := 1695275822
  slotDurationInSeconds : UInt16 := 10
  slotsPerEpochExponent : UInt8 := 13
  manaParameters : ManaParameters := .standard
  workScoreParameters : WorkScoreParameters := {}
  minCommittableAge : SlotIndex := 10
  maxCommittableAge : SlotIndex := 20
deriving DecidableEq, Repr

/-- Why a network's constants cannot be used. -/
inductive ParametersError where
  /-- The document could not be read as text. -/
  | unreadable
  /-- The text is no document of parameters. -/
  | malformed
  /-- A decay factor is above one. -/
  | decayFactorTooLarge (index : Nat) (value : UInt64)
  /-- The sum of decay factors times the generation rate does not fit in 32 bits. -/
  | epochsSumFactorTooLarge (sum : UInt32) (rate : UInt8)
  /-- A count of bits is outside the range it is needed in. -/
  | invalidExponent (name : String) (value : UInt8)
  | zeroSlotDuration
deriving DecidableEq, Repr

/-- The report of a failure with parameters. -/
def ParametersError.message : ParametersError → String
  | .unreadable => "Failed to read protocol parameters"
  | .malformed => "Failed to parse protocol parameters"
  | .decayFactorTooLarge index value => s!"Decay factor at index {index} exceeds 32 bits: {value}"
  | .epochsSumFactorTooLarge sum rate =>
    s!"Decay factor epochs sum {sum} times generation rate {rate} exceeds 32 bits"
  | .invalidExponent name value => s!"Invalid exponent {name}: {value}"
  | .zeroSlotDuration => "Slot duration must be greater than zero"

namespace ProtocolParameters

/-- The number by which transactions and blocks name their network: eight bytes of the digest of its
name. -/
def networkId (p : ProtocolParameters) : UInt64 :=
  .ofNat (ofLittleEndian ((blake3 p.networkName.toUTF8.toList).toList.take 8))

/-- The clock of the network. -/
def clock (p : ProtocolParameters) : SlotClock where
  genesisSlot := p.genesisSlot
  genesisTime := p.genesisUnixTimestamp
  slotSeconds := p.slotDurationInSeconds
  slotsPerEpochExponent := p.slotsPerEpochExponent

/-- Refuses a count of bits of the given name unless the condition holds. -/
def requireExponent (name : String) (value : UInt8) (holds : Bool) : Except ParametersError Unit :=
  if holds then .ok () else .error (.invalidExponent name value)

/-- Refuses the first decay factor above one. -/
def validateDecayFactors (m : ManaParameters) : Except ParametersError Unit :=
  match m.decayFactors.findIdx? fun factor => 1 <<< m.decayFactorsExponent.toNat < factor.toNat with
  | some index => .error (.decayFactorTooLarge index (m.decayFactors.getD index 0).toUInt64)
  | none => .ok ()

/-- Refuses a sum of decay factors that does not fit in 32 bits once it is multiplied by the rate. -/
def validateEpochsSum (m : ManaParameters) : Except ParametersError Unit :=
  if m.decayFactorEpochsSum.toNat * m.generationRate.toNat < UInt32.size then .ok ()
  else .error (.epochsSumFactorTooLarge m.decayFactorEpochsSum m.generationRate)

/-- Names the first constant that does not fit. -/
def validate (p : ProtocolParameters) : Except ParametersError Unit := do
  let m := p.manaParameters
  if p.slotDurationInSeconds = 0 then throw .zeroSlotDuration
  requireExponent "slots_per_epoch_exponent" p.slotsPerEpochExponent
    (p.slotsPerEpochExponent < 32)
  requireExponent "bits_count" m.bitsCount (0 < m.bitsCount ∧ m.bitsCount ≤ 64)
  requireExponent "generation_rate_exponent" m.generationRateExponent
    (m.generationRateExponent < 64)
  requireExponent "decay_factors_exponent" m.decayFactorsExponent (m.decayFactorsExponent < 64)
  requireExponent "decay_factor_epochs_sum_exponent" m.decayFactorEpochsSumExponent
    (m.decayFactorEpochsSumExponent < 64)
  let combined := m.decayFactorEpochsSumExponent.toNat + m.generationRateExponent.toNat
  requireExponent "decay_factor_epochs_sum_exponent" m.decayFactorEpochsSumExponent
    (p.slotsPerEpochExponent.toNat ≤ combined ∧ combined < 96)
  validateDecayFactors m
  validateEpochsSum m

end ProtocolParameters

end ManaWallet
