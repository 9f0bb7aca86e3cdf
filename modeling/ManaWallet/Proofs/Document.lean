import ManaWallet.Parameters.Document
import ManaWallet.Proofs.Json.Value

/-!
# Proofs/Document — a network's constants are read back from their document

    parameters ──toJson──▸ tree ──text──▸ document ──parse?──▸ tree ──ofJson?──▸ parameters

Each arrow back undoes the arrow there: the text of a tree with proper lexemes is read as that tree
(`Json.parse?_text`), and the tree of a network's constants as these constants (`ofJson?_toJson`).  So
no constant that has been written is left to its standard value or refused, and only validation can
still fail (`ofText?_toText_eq`).
-/

namespace ManaWallet

namespace WorkScoreParameters

/-- The weights are written as integers. -/
theorem proper_toJson (p : WorkScoreParameters) : p.toJson.Proper := by
  refine Json.proper_ofFields_zip ?_
  simp [Json.proper_ofNat]

/-- The weights are read back from their document. -/
@[simp] theorem ofJson?_toJson (p : WorkScoreParameters) : ofJson? p.toJson = some p := by
  rw [ofJson?, toJson, Json.fields?_ofFields_zip (by decide) rfl]
  simp [Json.orElse]

end WorkScoreParameters

namespace ManaParameters

/-- The constants of mana are written as integers and a list of integers. -/
theorem proper_toJson (p : ManaParameters) : p.toJson.Proper := by
  have hfactors : (Json.array (p.decayFactors.toList.map fun factor => .ofNat factor.toNat)).Proper := by
    refine .array ?_
    rw [List.forall_mem_map]
    exact fun factor _ => Json.proper_ofNat factor.toNat
  refine Json.proper_ofFields_zip ?_
  simp [Json.proper_ofNat, hfactors]

/-- The constants of mana are read back from their document, the table of decay factors whole. -/
@[simp] theorem ofJson?_toJson (p : ManaParameters) : ofJson? p.toJson = some p := by
  have hfactors : Json.items? Json.uint32?
      (.array (p.decayFactors.toList.map fun factor => .ofNat factor.toNat))
      = some p.decayFactors.toList := Json.items?_map Json.uint32?_ofNat p.decayFactors.toList
  rw [ofJson?, toJson, Json.fields?_ofFields_zip (by decide) rfl]
  simp [Json.required, hfactors]

end ManaParameters

namespace ProtocolParameters

/-- A network's constants are written with proper lexemes, whatever its name is. -/
theorem proper_toJson (p : ProtocolParameters) : p.toJson.Proper := by
  refine Json.proper_ofFields_zip ?_
  simp [Json.proper_ofNat, Json.proper_ofInt, Json.proper_ofString, ManaParameters.proper_toJson,
    WorkScoreParameters.proper_toJson]

/-- A network's constants are read back from their document. -/
theorem ofJson?_toJson (p : ProtocolParameters) : ofJson? p.toJson = some p := by
  rw [ofJson?, toJson, Json.fields?_ofFields_zip (by decide) rfl]
  simp [Json.orElse]

/-- The text of a network's constants stands for these constants. -/
theorem parse?_toText (p : ProtocolParameters) : (Json.parse? p.toText).bind ofJson? = some p := by
  rw [toText, Json.parse?_text p.proper_toJson, Option.bind_some, ofJson?_toJson]

/-- Different constants have different texts. -/
theorem toText_injective : Function.Injective toText := by
  intro p q heq
  have hp := p.parse?_toText
  rw [heq, q.parse?_toText] at hp
  exact (Option.some.inj hp).symm

/-- The text of a network's constants is read as these constants, and refused exactly if they are. -/
theorem ofText?_toText_eq (p : ProtocolParameters) :
    ofText? p.toText = p.validate.map fun _ => p := by
  rw [ofText?, parse?_toText]

/-- **A network's constants survive the way to text and back.**  Constants in force are read from their
text as they were, and with them the number of the network and its clock. -/
theorem ofText?_toText {p : ProtocolParameters} (h : p.validate = .ok ()) :
    ∃ q, ofText? p.toText = .ok q ∧ q = p ∧ q.networkId = p.networkId ∧ q.clock = p.clock := by
  refine ⟨p, ?_, rfl, rfl, rfl⟩
  rw [ofText?_toText_eq, h]
  rfl

/-- A network whose name needs every kind of escape, with constants at the ends of their ranges. -/
def quotedParameters : ProtocolParameters where
  version := 255
  networkName := "\"a\\b\"/\t\r\n\x08\x0c\x00\x1f\x7f é 世界 😀"
  bech32Hrp := ""
  tokenSupply := .ofNat (UInt64.size - 1)
  genesisSlot := .ofNat (UInt32.size - 1)
  genesisUnixTimestamp := Int64.minValue
  slotDurationInSeconds := 1
  slotsPerEpochExponent := 0
  manaParameters := {
    bitsCount := 64
    generationRate := 255
    generationRateExponent := 0
    decayFactors := #[.ofNat (UInt32.size - 1), 0]
    decayFactorsExponent := 63
    decayFactorEpochsSum := 0
    decayFactorEpochsSumExponent := 0
    annualDecayFactorPercentage := 0 }
  workScoreParameters := { dataByte := 0, block := .ofNat (UInt32.size - 1) }
  minCommittableAge := 1
  maxCommittableAge := 0

/-- The constants of that network come back from their text. -/
theorem ofText?_toText_of_quotes : quotedParameters.validate = .ok () ∧
    ∃ q, ofText? quotedParameters.toText = .ok q ∧ q = quotedParameters ∧
      q.networkId = quotedParameters.networkId ∧ q.clock = quotedParameters.clock := by
  have hvalid : quotedParameters.validate = .ok () := by decide +kernel
  exact ⟨hvalid, ofText?_toText hvalid⟩

end ProtocolParameters

end ManaWallet
