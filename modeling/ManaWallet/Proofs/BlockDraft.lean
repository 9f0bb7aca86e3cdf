import ManaWallet.Proofs.Standard
import ManaWallet.Proofs.WorkScore

/-!
# Proofs/BlockDraft — a block burns exactly what it costs, whatever is decided later

    draft ──burnCost──▸ limit = reference cost · score ──other decisions──▸ block with this limit and score

The score of a block depends on the network's weights and the payload only, so neither the burn limit
nor any decision beside the payload feeds back into it.  A draft that has been priced stays priced under
every such decision (`Priced.set`), hence under any number of them (`Priced.setAll`).
-/

namespace ManaWallet

/-- Whether a decision is about what the block costs or burns. -/
def BlockDecision.prices : BlockDecision → Bool
  | .payload _ | .maxBurnedMana _ => true
  | .issuingTime _ | .slotCommitmentId _ | .latestFinalizedSlot _ | .strongParents _ | .weakParents _
  | .shallowLikeParents _ => false

namespace BlockDraft

variable {d e burning : BlockDraft} {referenceManaCost : Mana} {protocol : Protocol}

/-! ## The cost -/

/-- Drafts on one network with one payload have one score. -/
theorem workScore_congr (hprotocol : e.protocol = d.protocol) (hpayload : e.payload = d.payload) :
    e.workScore = d.workScore := by
  have hscore : ∀ (b b' : Block) (p : WorkScoreParameters), b.payload = b'.payload →
      b.workScore p = b'.workScore p := fun b b' p h => by rw [Block.workScore, Block.workScore, h]
  rw [workScore, workScore, hprotocol]
  exact hscore e.block d.block _ hpayload

/-- A block costs the reference cost times its score. -/
theorem cost_eq_ok_iff {mana : Mana} : d.cost referenceManaCost = .ok mana ↔
    ∃ w, d.workScore = .ok w ∧ mana.toNat = referenceManaCost.toNat * w.toNat := by
  simp only [cost, bind_eq_ok_iff, mapError_eq_ok_iff, manaCost_eq_ok_iff]

/-- A block has a cost exactly if it has a score whose price fits in 64 bits. -/
theorem exists_cost_iff : (∃ mana, d.cost referenceManaCost = .ok mana) ↔
    ∃ w, d.workScore = .ok w ∧ referenceManaCost.toNat * w.toNat < UInt64.size := by
  simp only [cost_eq_ok_iff]
  constructor
  · rintro ⟨mana, w, hw, hmana⟩
    exact ⟨w, hw, hmana ▸ mana.toNat_lt_size⟩
  · rintro ⟨w, hw, hfits⟩
    obtain ⟨mana, hmana⟩ := exists_word hfits
    exact ⟨mana, w, hw, hmana⟩

/-- Letting a block burn its cost sets the limit and nothing else. -/
theorem burnCost_eq_ok_iff : d.burnCost referenceManaCost = .ok burning ↔
    ∃ mana, d.cost referenceManaCost = .ok mana ∧ { d with maxBurnedMana := mana } = burning :=
  map_eq_ok_iff

/-- A block can burn its cost exactly if it has one. -/
theorem exists_burnCost_iff : (∃ burning, d.burnCost referenceManaCost = .ok burning) ↔
    ∃ mana, d.cost referenceManaCost = .ok mana := by
  simp only [burnCost_eq_ok_iff]
  constructor
  · rintro ⟨_, mana, hmana, _⟩
    exact ⟨mana, hmana⟩
  · rintro ⟨mana, hmana⟩
    exact ⟨_, mana, hmana, rfl⟩

/-! ## Priced drafts -/

/-- On this network, the burn limit of a draft is what the block as decided so far costs. -/
structure Priced (protocol : Protocol) (referenceManaCost : Mana) (d : BlockDraft) : Prop where
  protocol_eq : d.protocol = protocol
  exact_limit : ∃ w, d.workScore = .ok w ∧ d.maxBurnedMana.toNat = referenceManaCost.toNat * w.toNat

/-- Letting a block burn its cost prices it: the limit is no part of the score. -/
theorem priced_of_burnCost (h : d.burnCost referenceManaCost = .ok burning) :
    Priced d.protocol referenceManaCost burning := by
  obtain ⟨mana, hmana, rfl⟩ := burnCost_eq_ok_iff.mp h
  obtain ⟨w, hw, hcost⟩ := cost_eq_ok_iff.mp hmana
  exact ⟨rfl, w, (workScore_congr rfl rfl).trans hw, hcost⟩

/-- What keeps network, payload and limit keeps the price. -/
theorem Priced.of_eq (h : Priced protocol referenceManaCost d) (hprotocol : e.protocol = d.protocol)
    (hpayload : e.payload = d.payload) (hlimit : e.maxBurnedMana = d.maxBurnedMana) :
    Priced protocol referenceManaCost e := by
  obtain ⟨w, hw, hcost⟩ := h.exact_limit
  refine ⟨hprotocol.trans h.protocol_eq, w, (workScore_congr hprotocol hpayload).trans hw, ?_⟩
  rw [hlimit, hcost]

/-- One decision about something else keeps the price. -/
theorem Priced.set (h : Priced protocol referenceManaCost d) {decision : BlockDecision}
    (hother : decision.prices = false) : Priced protocol referenceManaCost (d.set decision) := by
  cases decision with
  | payload | maxBurnedMana => cases hother
  | issuingTime | slotCommitmentId | latestFinalizedSlot | strongParents | weakParents
  | shallowLikeParents => exact h.of_eq rfl rfl rfl

/-- Any number of decisions about something else keep the price. -/
theorem Priced.setAll (h : Priced protocol referenceManaCost d) {later : List BlockDecision}
    (hother : ∀ decision ∈ later, decision.prices = false) :
    Priced protocol referenceManaCost (d.setAll later) := by
  induction later generalizing d with
  | nil => exact h
  | cons decision rest ih =>
    obtain ⟨hfirst, hrest⟩ := List.forall_mem_cons.mp hother
    exact ih (h.set hfirst) hrest

/-! ## The burn limit -/

/-- **Score and burn limit are exact.**  A block has a score exactly if the exact sum fits in 32 bits,
and then the score is that sum.  A block can be made to burn its cost exactly if it has a score whose
price fits in 64 bits, and then it burns the price of its own score whatever else is decided later. -/
theorem burns_exactly_its_cost (p : WorkScoreParameters) (b : Block) (d : BlockDraft)
    (referenceManaCost : Mana) :
    (∀ w, b.workScore p = .ok w ↔ w.toNat = b.exactScore p) ∧
    ((∃ w, b.workScore p = .ok w) ↔ b.exactScore p < UInt32.size) ∧
    ((∃ burning, d.burnCost referenceManaCost = .ok burning) ↔
      ∃ w, d.workScore = .ok w ∧ referenceManaCost.toNat * w.toNat < UInt64.size) ∧
    ∀ burning, d.burnCost referenceManaCost = .ok burning →
      ∀ later : List BlockDecision, (∀ decision ∈ later, decision.prices = false) →
        ∃ w, (burning.setAll later).block.workScore d.protocol.parameters.workScoreParameters = .ok w ∧
          (burning.setAll later).block.maxBurnedMana.toNat = referenceManaCost.toNat * w.toNat := by
  refine ⟨fun w => Block.workScore_eq_ok_iff, Block.exists_workScore_iff,
    exists_burnCost_iff.trans exists_cost_iff, ?_⟩
  intro burning hburning later hother
  have hpriced : Priced d.protocol referenceManaCost (burning.setAll later) :=
    (priced_of_burnCost hburning).setAll hother
  obtain ⟨w, hw, hlimit⟩ := hpriced.exact_limit
  rw [workScore, hpriced.protocol_eq] at hw
  exact ⟨w, hw, hlimit⟩

end BlockDraft

/-- A block that carries thirteen bytes of data. -/
def sampleTaggedDraft : BlockDraft where
  protocol := .standard
  issuerId := sampleAccount
  payload := some (.tagged { tag := [116, 97, 103], data := .replicate 10 0 })

/-- It scores 100 for itself and 29 for its data, so at a reference cost of 3 it burns 387; its time and
its parents can still be decided. -/
theorem burns_exactly_its_cost_sample :
    ∃ burning, sampleTaggedDraft.burnCost 3 = .ok burning ∧
      ∃ w, (burning.setAll [.issuingTime 1700000000, .strongParents [.zero 32]]).block.workScore
          sampleTaggedDraft.protocol.parameters.workScoreParameters = .ok w ∧
        (burning.setAll [.issuingTime 1700000000, .strongParents [.zero 32]]).block.maxBurnedMana.toNat
          = (3 : Mana).toNat * w.toNat ∧ w = 129 := by
  have hexact := BlockDraft.burns_exactly_its_cost Protocol.standard.parameters.workScoreParameters
    sampleTaggedDraft.block sampleTaggedDraft 3
  have hscore : sampleTaggedDraft.workScore = .ok 129 := (hexact.1 129).mpr (by decide +kernel)
  obtain ⟨burning, hburning⟩ := hexact.2.2.1.mpr ⟨129, hscore, by decide⟩
  obtain ⟨w, hw, hlimit⟩ := hexact.2.2.2 burning hburning
    [.issuingTime 1700000000, .strongParents [.zero 32]] (by simp [BlockDecision.prices])
  refine ⟨burning, hburning, w, hw, hlimit, ?_⟩
  obtain ⟨mana, _, rfl⟩ := BlockDraft.burnCost_eq_ok_iff.mp hburning
  have hsame : Except.ok w = Except.ok 129 := hw.symm.trans hscore
  exact Except.ok.inj hsame

end ManaWallet
