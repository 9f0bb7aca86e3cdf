import ManaWallet.Json.Value
import ManaWallet.Parameters.Protocol

/-!
# Parameters/Document — a network's constants as a JSON document

    document ──parse?──▸ JSON tree ──ofJson?──▸ parameters ──validate──▸ parameters in force

A document is an object with a member per constant, or an array of the constants in order.  Constants it
leaves out have their standard value, except those of generation and decay, which stand or fall
together.
-/

namespace ManaWallet

namespace WorkScoreParameters

/-- The names of the weights in a document. -/
def fieldNames : List String :=
  ["data_byte", "block", "input", "context_input", "output", "allotment", "signature_ed25519"]

/-- The weights in a document. -/
def ofJson? (j : Json) : Option WorkScoreParameters := do
  let [dataByte, block, input, contextInput, output, allotment, signature] ←
    j.fields? fieldNames | none
  let weight (standard : WorkScore) := Json.orElse standard Json.uint32?
  let standard : WorkScoreParameters := {}
  return {
    dataByte := ← weight standard.dataByte dataByte
    block := ← weight standard.block block
    input := ← weight standard.input input
    contextInput := ← weight standard.contextInput contextInput
    output := ← weight standard.output output
    allotment := ← weight standard.allotment allotment
    signatureEd25519 := ← weight standard.signatureEd25519 signature }

/-- The weights as a document. -/
def toJson (p : WorkScoreParameters) : Json :=
  .ofFields (fieldNames.zip
    (([p.dataByte, p.block, p.input, p.contextInput, p.output, p.allotment,
      p.signatureEd25519]).map fun weight => Json.ofNat weight.toNat))

end WorkScoreParameters

namespace ManaParameters

/-- The names of the constants in a document. -/
def fieldNames : List String :=
  ["bits_count", "generation_rate", "generation_rate_exponent", "decay_factors",
    "decay_factors_exponent", "decay_factor_epochs_sum", "decay_factor_epochs_sum_exponent",
    "annual_decay_factor_percentage"]

/-- The constants in a document; none may be left out. -/
def ofJson? (j : Json) : Option ManaParameters := do
  let [bitsCount, rate, rateExponent, factors, factorsExponent, sum, sumExponent, annual] ←
    j.fields? fieldNames | none
  return {
    bitsCount := ← Json.required Json.uint8? bitsCount
    generationRate := ← Json.required Json.uint8? rate
    generationRateExponent := ← Json.required Json.uint8? rateExponent
    decayFactors := (← Json.required (Json.items? Json.uint32?) factors).toArray
    decayFactorsExponent := ← Json.required Json.uint8? factorsExponent
    decayFactorEpochsSum := ← Json.required Json.uint32? sum
    decayFactorEpochsSumExponent := ← Json.required Json.uint8? sumExponent
    annualDecayFactorPercentage := ← Json.required Json.uint8? annual }

/-- The constants as a document. -/
def toJson (p : ManaParameters) : Json :=
  .ofFields (fieldNames.zip
    [.ofNat p.bitsCount.toNat, .ofNat p.generationRate.toNat, .ofNat p.generationRateExponent.toNat,
      .array (p.decayFactors.toList.map fun factor => .ofNat factor.toNat),
      .ofNat p.decayFactorsExponent.toNat, .ofNat p.decayFactorEpochsSum.toNat,
      .ofNat p.decayFactorEpochsSumExponent.toNat, .ofNat p.annualDecayFactorPercentage.toNat])

end ManaParameters

namespace ProtocolParameters

/-- The names of the constants in a document. -/
def fieldNames : List String :=
  ["version", "network_name", "bech32_hrp", "token_supply", "genesis_slot",
    "genesis_unix_timestamp", "slot_duration_in_seconds", "slots_per_epoch_exponent",
    "mana_parameters", "work_score_parameters", "min_committable_age", "max_committable_age"]

/-- The constants in a document, not yet validated. -/
def ofJson? (j : Json) : Option ProtocolParameters := do
  let [version, networkName, bech32Hrp, tokenSupply, genesisSlot, genesisTime, slotDuration,
      slotsPerEpoch, mana, workScore, minAge, maxAge] ← j.fields? fieldNames | none
  let standard : ProtocolParameters := {}
  return {
    version := ← Json.orElse standard.version Json.uint8? version
    networkName := ← Json.orElse standard.networkName Json.string? networkName
    bech32Hrp := ← Json.orElse standard.bech32Hrp Json.string? bech32Hrp
    tokenSupply := ← Json.orElse standard.tokenSupply Json.uint64? tokenSupply
    genesisSlot := ← Json.orElse standard.genesisSlot Json.uint32? genesisSlot
    genesisUnixTimestamp :=
      ← Json.orElse standard.genesisUnixTimestamp Json.int64? genesisTime
    slotDurationInSeconds := ← Json.orElse standard.slotDurationInSeconds Json.uint16? slotDuration
    slotsPerEpochExponent := ← Json.orElse standard.slotsPerEpochExponent Json.uint8? slotsPerEpoch
    manaParameters := ← Json.orElse standard.manaParameters ManaParameters.ofJson? mana
    workScoreParameters :=
      ← Json.orElse standard.workScoreParameters WorkScoreParameters.ofJson? workScore
    minCommittableAge := ← Json.orElse standard.minCommittableAge Json.uint32? minAge
    maxCommittableAge := ← Json.orElse standard.maxCommittableAge Json.uint32? maxAge }

/-- The constants as a document. -/
def toJson (p : ProtocolParameters) : Json :=
  .ofFields (fieldNames.zip
    [.ofNat p.version.toNat, .ofString p.networkName, .ofString p.bech32Hrp,
      .ofNat p.tokenSupply.toNat, .ofNat p.genesisSlot.toNat, .ofInt p.genesisUnixTimestamp.toInt,
      .ofNat p.slotDurationInSeconds.toNat, .ofNat p.slotsPerEpochExponent.toNat,
      p.manaParameters.toJson, p.workScoreParameters.toJson,
      .ofNat p.minCommittableAge.toNat, .ofNat p.maxCommittableAge.toNat])

/-- The text of the document of a network's constants. -/
def toText (p : ProtocolParameters) : String := String.ofList p.toJson.text

/-- The constants in the text of a document, if they can be used. -/
def ofText? (text : String) : Except ParametersError ProtocolParameters :=
  match (Json.parse? text).bind ofJson? with
  | none => .error .malformed
  | some p => p.validate.map fun _ => p

/-- The constants in the bytes of a document; bytes that are no UTF-8 cannot be read. -/
def ofBytes? (bytes : ByteArray) : Except ParametersError ProtocolParameters :=
  match String.fromUTF8? bytes with
  | none => .error .unreadable
  | some text => ofText? text

end ProtocolParameters

end ManaWallet
