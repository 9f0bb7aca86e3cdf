import ManaWallet.Balance
import ManaWallet.BlockDraft
import ManaWallet.Draft.Unlocking

/-!
# Draft/Basic — a transaction in the making

    inputs, outputs, context, allotments ──add──▸ draft ──build──▸ transaction with unlocks
                                                    └──balance──▸ mana left to hand out

Operations on a draft give a draft again.  The first one that fails leaves its failure in the draft;
from then on operations change nothing, and building gives that failure.
-/

namespace ManaWallet

/-- A transaction in the making: its parts, each input with the output it consumes. -/
structure Draft where
  protocol : Protocol
  signer : Signer
  creationSlot : SlotIndex := 0
  contextInputs : List ContextInput := []
  inputs : List Input := []
  allotments : Allotments := {}
  capabilities : TransactionCapabilities := {}
  payload : Option TaggedData := none
  outputs : List Output := []
  /-- Mana claimed by the reward inputs. -/
  rewards : Mana := 0
  failure : Option DraftError := none

/-- What an operation leaves: the draft as far as it was changed, and the failure that stopped it. -/
structure Outcome where
  draft : Draft
  failure : Option DraftError

namespace Outcome

/-- Goes on with the draft, unless there was a failure. -/
def andThen (o : Outcome) (next : Draft → Outcome) : Outcome :=
  match o.failure with
  | none => next o.draft
  | some _ => o

end Outcome

namespace Draft

/-- An operation that could not fail. -/
def done (d : Draft) : Outcome := ⟨d, none⟩

/-- Goes on with a result, or stops with the failure that stands in its place. -/
def proceed {α : Type} (d : Draft) (result : Except DraftError α) (next : α → Outcome) : Outcome :=
  match result with
  | .ok value => next value
  | .error e => ⟨d, some e⟩

/-- Applies an operation, unless an earlier one has failed, and keeps the failure it ends with. -/
def apply (d : Draft) (operation : Draft → Outcome) : Draft :=
  match d.failure with
  | some _ => d
  | none =>
    let o := operation d
    { o.draft with failure := o.failure }

/-- The empty draft on a network. -/
def start (protocol : Protocol) (signer : Signer) : Draft := { protocol, signer }

/-! ## Parts of the transaction -/

/-- Adds an input.  An output of this name that is already consumed is consumed once more, and from then
on every time as it is given last. -/
def addInput (d : Draft) (input : Input) : Draft :=
  d.apply fun d =>
    let earlier := d.inputs.map fun i => if i.outputId = input.outputId then input else i
    done { d with inputs := earlier ++ [input] }

/-- Adds an output. -/
def addOutput (d : Draft) (output : Output) : Draft :=
  d.apply fun d => done { d with outputs := d.outputs ++ [output] }

/-- The draft with a further context input. -/
def withContext (d : Draft) (input : ContextInput) : Draft :=
  { d with contextInputs := d.contextInputs ++ [input] }

/-- Refers to a slot commitment. -/
def addCommitment (d : Draft) (id : CommitmentId) : Draft :=
  d.apply fun d => done (d.withContext (.commitment id))

/-- Refers to the block issuance credit of an account. -/
def addBlockIssuanceCredit (d : Draft) (account : AccountId) : Draft :=
  d.apply fun d => done (d.withContext (.blockIssuanceCredit account))

/-- Claims rewards for the input at a place. -/
def addReward (d : Draft) (index : UInt16) (mana : Mana) : Draft :=
  d.apply fun d => d.proceed ((checkedAdd d.rewards mana).mapError .arithmetic) fun rewards =>
    done { d.withContext (.reward index) with rewards }

/-- Sets the payload. -/
def setPayload (d : Draft) (payload : TaggedData) : Draft :=
  d.apply fun d => done { d with payload := some payload }

/-- Sets what the transaction may do. -/
def setCapabilities (d : Draft) (capabilities : TransactionCapabilities) : Draft :=
  d.apply fun d => done { d with capabilities }

/-- Sets the slot that the transaction is made for. -/
def setCreationSlot (d : Draft) (slot : SlotIndex) : Draft :=
  d.apply fun d => done { d with creationSlot := slot }

/-- Allots an account further mana; nothing for no mana. -/
def allot (d : Draft) (account : AccountId) (mana : Mana) : Outcome :=
  if mana = 0 then d.done
  else
    d.proceed ((d.allotments.increase account mana).mapError .arithmetic) fun allotments =>
      done { d with allotments }

/-- Allots an account further mana. -/
def increaseAllotment (d : Draft) (account : AccountId) (mana : Mana) : Draft :=
  d.apply fun d => d.allot account mana

/-- The transaction as drafted so far, not yet tied to the outputs it consumes. -/
def transaction (d : Draft) : Transaction where
  networkId := d.protocol.parameters.networkId
  creationSlot := d.creationSlot
  contextInputs := d.contextInputs
  inputs := d.inputs.map Input.outputId
  allotments := d.allotments
  capabilities := d.capabilities
  payload := d.payload
  outputs := d.outputs

/-! ## Balance -/

/-- The outputs that the draft consumes. -/
def consumed (d : Draft) : List Consumed := d.inputs.map fun input => (input.outputId, input.output)

/-- The mana of the inputs and rewards at a slot. -/
def balance (d : Draft) (slot : SlotIndex) : Except DraftError Balance :=
  (d.protocol.balanceOf slot d.consumed d.rewards).mapError .mana

/-- The mana at a slot that no output and no allotment has claimed. -/
def balanceLeft (d : Draft) (slot : SlotIndex) : Except DraftError Balance :=
  (d.protocol.balanceAfter slot d.consumed d.rewards d.transaction).mapError .mana

/-! ## Building -/

/-- The transaction in the form it is signed in: context inputs and allotments in ascending order, and
tied to the outputs it consumes. -/
def finalTransaction (d : Draft) : Transaction :=
  { d.transaction with
    contextInputs := sortAscending d.contextInputs
    allotments := d.allotments.sorted
    inputsCommitment := inputsCommitment (d.inputs.map Input.output) }

/-- The finished transaction with the unlocks of its inputs. -/
def build (d : Draft) (mode : SigningMode) : Except DraftError SignedTransaction :=
  match d.failure with
  | some e => .error e
  | none =>
    let transaction := d.finalTransaction
    (unlocksOf d.signer mode transaction d.inputs).map fun unlocks => ⟨transaction, unlocks⟩

end Draft

end ManaWallet
