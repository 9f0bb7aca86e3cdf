import ManaWallet.Protocol
import ManaWallet.Proofs.Document
import ManaWallet.Proofs.Parameters

/-!
# Proofs/Protocol — which constants can be put in force

    document ──ofText?──▸ valid constants ──ofParameters?──▸ constants in force ──schedule──▸ engine

Reading a document and putting constants in force validate by the same check, but the engine's
multiplication asks for one thing more: decay factors over `2 ^ 32` at most, where validation lets
exponents up to 63 pass.  So there is a band of constants that can be read and not be used
(`Protocol.Stranded`), and everywhere else validation and the engine agree (`ofParameters?_agrees_iff`).
-/

namespace ManaWallet

variable {p : ProtocolParameters}

namespace ProtocolParameters

/-- Some document, as text or as the bytes of a file, is read as these constants. -/
def IsRead (p : ProtocolParameters) : Prop :=
  (∃ text, ofText? text = .ok p) ∨ ∃ bytes, ofBytes? bytes = .ok p

/-- Only valid constants are read from a text. -/
theorem validate_of_ofText? {text : String} (h : ofText? text = .ok p) : p.validate = .ok () := by
  unfold ofText? at h
  split at h
  · cases h
  · next found _ =>
    obtain ⟨_, hvalid, rfl⟩ := map_eq_ok_iff.mp h
    exact hvalid

/-- Only valid constants are read from a file. -/
theorem validate_of_ofBytes? {bytes : ByteArray} (h : ofBytes? bytes = .ok p) :
    p.validate = .ok () := by
  unfold ofBytes? at h
  split at h
  · cases h
  · exact validate_of_ofText? h

/-- **What can be read is what is valid**: valid constants are read from their own text, no others from
anywhere. -/
theorem isRead_iff : p.IsRead ↔ p.validate = .ok () := by
  constructor
  · rintro (⟨text, htext⟩ | ⟨bytes, hbytes⟩)
    · exact validate_of_ofText? htext
    · exact validate_of_ofBytes? hbytes
  · intro hvalid
    refine .inl ⟨p.toText, ?_⟩
    rw [ofText?_toText_eq, hvalid]
    rfl

end ProtocolParameters

namespace Protocol

/-- Constants that pass validation with decay factors over more than `2 ^ 32`. -/
structure Stranded (p : ProtocolParameters) : Prop where
  valid : p.validate = .ok ()
  wide : 32 < p.manaParameters.decayFactorsExponent

/-! ## The three ways it ends -/

/-- Constants that are not valid are refused with what validation says of them. -/
theorem ofParameters?_of_invalid {e : ParametersError} (h : p.validate = .error e) :
    ofParameters? p = .error (.parameters e) := by
  unfold ofParameters?
  split
  · next found hfound =>
    rw [h, Except.error.injEq] at hfound
    rw [hfound]
  · next hvalid => cases h.symm.trans hvalid

/-- Valid constants come in force as they are, or are refused for their decay factors. -/
theorem ofParameters?_of_valid (h : p.validate = .ok ()) :
    ofParameters? p = if hle : p.manaParameters.decayFactorsExponent ≤ 32 then .ok ⟨p, h, hle⟩
      else .error (.wideFactors p.manaParameters) := by
  unfold ofParameters?
  split
  · next hinvalid => cases h.symm.trans hinvalid
  · rfl

theorem ofParameters?_of_stranded (h : Stranded p) :
    ofParameters? p = .error (.wideFactors p.manaParameters) := by
  rw [ofParameters?_of_valid h.valid, dif_neg (UInt8.not_le.mpr h.wide)]

/-- Constants in force are the very ones that were to come in force, and these can. -/
theorem ofParameters?_eq_ok_iff {q : Protocol} : ofParameters? p = .ok q ↔ q.parameters = p := by
  constructor
  · intro h
    cases hvalid : p.validate with
    | error e =>
      rw [ofParameters?_of_invalid hvalid] at h
      cases h
    | ok =>
      rw [ofParameters?_of_valid hvalid] at h
      split at h
      · cases h
        rfl
      · cases h
  · rintro rfl
    rw [ofParameters?_of_valid q.valid, dif_pos q.exponent_le]

/-- Constants can come in force exactly if they are valid and not stranded. -/
theorem exists_ofParameters?_iff :
    (∃ q, ofParameters? p = .ok q) ↔ p.validate = .ok () ∧ ¬ Stranded p := by
  simp only [ofParameters?_eq_ok_iff]
  constructor
  · rintro ⟨q, rfl⟩
    exact ⟨q.valid, fun h => UInt8.not_le.mpr h.wide q.exponent_le⟩
  · rintro ⟨hvalid, hnot⟩
    have hle : p.manaParameters.decayFactorsExponent ≤ 32 :=
      UInt8.not_lt.mp fun hwide => hnot ⟨hvalid, hwide⟩
    exact ⟨⟨p, hvalid, hle⟩, rfl⟩

/-- A refusal repeats validation, or it is for the decay factors of stranded constants. -/
theorem ofParameters?_eq_error_iff {e : ManaError} : ofParameters? p = .error e ↔
    (∃ reason, p.validate = .error reason ∧ e = .parameters reason) ∨
      Stranded p ∧ e = .wideFactors p.manaParameters := by
  cases hvalid : p.validate with
  | error found =>
    have hnot : ¬ Stranded p := fun h => by cases h.valid.symm.trans hvalid
    simp [ofParameters?_of_invalid hvalid, hnot, eq_comm]
  | ok =>
    by_cases hstranded : Stranded p
    · simp [ofParameters?_of_stranded hstranded, hstranded, eq_comm]
    · obtain ⟨q, hq⟩ := exists_ofParameters?_iff.mpr ⟨hvalid, hstranded⟩
      simp [hq, hstranded]

/-! ## The engine -/

/-- For valid constants, coming in force is building their engine: one fails exactly if the other does,
with the same report, and otherwise the engine is the schedule of the constants in force. -/
theorem map_schedule_ofParameters? (h : p.validate = .ok ()) :
    (ofParameters? p).map schedule
      = ManaSchedule.ofParameters? p.clock p.slotsPerEpochExponent p.manaParameters := by
  rw [ofParameters?_of_valid h, ManaSchedule.ofParameters?]
  split <;> rfl

/-- **Validation and the engine agree exactly outside of the stranded constants.**  Constants can be
read from a document exactly if they are valid.  That they come in force exactly if they are valid holds
of all constants but the stranded ones, which are valid and never come in force; any other refusal is
the one that validation reports, and what comes in force is what was to. -/
theorem ofParameters?_agrees_iff (p : ProtocolParameters) :
    (p.IsRead ↔ p.validate = .ok ()) ∧
    (((∃ q, ofParameters? p = .ok q) ↔ p.validate = .ok ()) ↔ ¬ Stranded p) ∧
    (∀ q, ofParameters? p = .ok q ↔ q.parameters = p) ∧
    ∀ e, ofParameters? p = .error e ↔
      (∃ reason, p.validate = .error reason ∧ e = .parameters reason) ∨
        Stranded p ∧ e = .wideFactors p.manaParameters := by
  refine ⟨ProtocolParameters.isRead_iff, ?_, fun q => ofParameters?_eq_ok_iff,
    fun e => ofParameters?_eq_error_iff⟩
  rw [exists_ofParameters?_iff]
  constructor
  · intro hagree hstranded
    exact (hagree.mpr hstranded.valid).2 hstranded
  · intro hnot
    exact and_iff_left hnot

end Protocol

/-- The standard constants, with the decay factors over `2 ^ 33`. -/
def ProtocolParameters.halved : ProtocolParameters where
  manaParameters := { ManaParameters.standard with decayFactorsExponent := 33 }

theorem ProtocolParameters.validate_halved : halved.validate = .ok () :=
  validate_of_untabled (by decide) (by decide +kernel)

/-- A text is read as these constants, and they do not come in force. -/
theorem read_but_refused :
    (∃ text, ProtocolParameters.ofText? text = .ok ProtocolParameters.halved) ∧
    Protocol.ofParameters? ProtocolParameters.halved
      = .error (.parameters (.invalidExponent "decay_factors_exponent" 33)) ∧
    ¬ ((∃ q, Protocol.ofParameters? ProtocolParameters.halved = .ok q) ↔
      ProtocolParameters.halved.validate = .ok ()) := by
  have hvalid := ProtocolParameters.validate_halved
  have hstranded : Protocol.Stranded ProtocolParameters.halved := ⟨hvalid, by decide⟩
  refine ⟨⟨ProtocolParameters.halved.toText, ?_⟩, Protocol.ofParameters?_of_stranded hstranded, ?_⟩
  · rw [ProtocolParameters.ofText?_toText_eq, hvalid]
    rfl
  · intro hagree
    exact (Protocol.exists_ofParameters?_iff.mp (hagree.mpr hvalid)).2 hstranded

end ManaWallet
