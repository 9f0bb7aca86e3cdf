import ManaWallet.Block
import ManaWallet.Draft.Error
import ManaWallet.Protocol

/-!
# BlockDraft — a block in the making, and what it burns
-/

namespace ManaWallet

/-- What an issuer has decided on a block so far. -/
structure BlockDraft where
  protocol : Protocol
  issuerId : AccountId
  issuingTime : Int64 := 0
  slotCommitmentId : CommitmentId := ⟨.zero 32, 0⟩
  latestFinalizedSlot : SlotIndex := 0
  strongParents : List BlockId := []
  weakParents : List BlockId := []
  shallowLikeParents : List BlockId := []
  payload : Option Payload := none
  maxBurnedMana : Mana := 0

/-- A decision of the issuer on a block. -/
inductive BlockDecision where
  | issuingTime (unixSeconds : Int64)
  | slotCommitmentId (id : CommitmentId)
  | latestFinalizedSlot (slot : SlotIndex)
  | strongParents (parents : List BlockId)
  | weakParents (parents : List BlockId)
  | shallowLikeParents (parents : List BlockId)
  | payload (payload : Payload)
  | maxBurnedMana (mana : Mana)

namespace BlockDraft

/-- Decides one thing, in place of what was decided on it before. -/
def set (d : BlockDraft) : BlockDecision → BlockDraft
  | .issuingTime unixSeconds => { d with issuingTime := unixSeconds }
  | .slotCommitmentId id => { d with slotCommitmentId := id }
  | .latestFinalizedSlot slot => { d with latestFinalizedSlot := slot }
  | .strongParents parents => { d with strongParents := parents }
  | .weakParents parents => { d with weakParents := parents }
  | .shallowLikeParents parents => { d with shallowLikeParents := parents }
  | .payload payload => { d with payload := some payload }
  | .maxBurnedMana mana => { d with maxBurnedMana := mana }

/-- Decides several things in turn. -/
def setAll (d : BlockDraft) (decisions : List BlockDecision) : BlockDraft := decisions.foldl set d

/-- The block as decided so far. -/
def block (d : BlockDraft) : Block where
  header := {
    protocolVersion := d.protocol.parameters.version
    networkId := d.protocol.parameters.networkId
    issuingTime := d.issuingTime
    slotCommitmentId := d.slotCommitmentId
    latestFinalizedSlot := d.latestFinalizedSlot
    issuerId := d.issuerId }
  strongParents := d.strongParents
  weakParents := d.weakParents
  shallowLikeParents := d.shallowLikeParents
  payload := d.payload
  maxBurnedMana := d.maxBurnedMana

/-- The score of the block as decided so far. -/
def workScore (d : BlockDraft) : Except ArithmeticError WorkScore :=
  d.block.workScore d.protocol.parameters.workScoreParameters

/-- The mana that the block as decided so far costs its issuer. -/
def cost (d : BlockDraft) (referenceManaCost : Mana) : Except DraftError Mana := do
  let score ← d.workScore.mapError .workScore
  (manaCost referenceManaCost score).mapError .arithmetic

/-- Lets the block burn what it costs. -/
def burnCost (d : BlockDraft) (referenceManaCost : Mana) : Except DraftError BlockDraft :=
  (d.cost referenceManaCost).map fun mana => { d with maxBurnedMana := mana }

end BlockDraft

end ManaWallet
