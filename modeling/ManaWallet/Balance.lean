import ManaWallet.Protocol
import Std.Data.ExtTreeMap

/-!
# Balance — the mana that a transaction has at its disposal

    inputs ──potential and stored mana──▸ ┬─ bound to an account
                                          └─ unbound, with rewards
    outputs, allotments ──claims──▸ taken from the account they go to, then from the unbound mana

Mana of account inputs is bound to the account: only outputs locked to the account and allotments to it
may use it.  All other mana is unbound and may go anywhere.
-/

namespace ManaWallet

/-- Mana per account, in ascending order of accounts. -/
abbrev AccountMana := Std.ExtTreeMap AccountId Mana

/-- The mana of some inputs, or what is left of it. -/
structure Balance where
  total : Mana := 0
  unbound : Mana := 0
  potential : Mana := 0
  stored : Mana := 0
  unboundPotential : Mana := 0
  unboundStored : Mana := 0
  rewards : Mana := 0
  bound : AccountMana := ∅

namespace Balance

/-- The mana bound to an account. -/
def boundTo (b : Balance) (account : AccountId) : Mana := b.bound.getD account 0

/-- Binds further mana to an account. -/
def bind (b : Balance) (account : AccountId) (mana : Mana) : Except ArithmeticError Balance := do
  let sum ← checkedAdd (b.boundTo account) mana
  return { b with bound := b.bound.insert account sum }

/-- Takes unbound mana. -/
def takeUnbound (b : Balance) (mana : Mana) : Except ArithmeticError Balance := do
  let left ← checkedSub b.unbound mana
  return { b with unbound := left }

/-- Takes mana bound to an account, and unbound mana for what is missing of it.  An account of which
nothing is left has no entry. -/
def takeBound (b : Balance) (account : AccountId) (mana : Mana) : Except ArithmeticError Balance :=
  let bound := b.boundTo account
  if mana < bound then .ok { b with bound := b.bound.insert account (bound - mana) }
  else { b with bound := b.bound.erase account }.takeUnbound (mana - bound)

end Balance

/-- An output that a transaction consumes, with its name. -/
abbrev Consumed := OutputId × Output

namespace Protocol

/-! ## Inputs -/

/-- Adds the mana of an input, at the target slot, to a balance. -/
def addInput (p : Protocol) (target : SlotIndex) (b : Balance) (input : Consumed) :
    Except ManaError Balance := do
  let (id, output) := input
  let potential ← p.schedule.potential output.amount id.creationSlot target
  let stored ← p.schedule.decayBySlots output.storedMana id.creationSlot target
  ManaSchedule.checked do
    let b := { b with potential := ← checkedAdd b.potential potential }
    let b := { b with stored := ← checkedAdd b.stored stored }
    match output.accountId? with
    | some account => b.bind (account.orOfOutputId id) (← checkedAdd potential stored)
    | none =>
      let b := { b with unboundPotential := ← checkedAdd b.unboundPotential potential }
      let b := { b with unboundStored := ← checkedAdd b.unboundStored stored }
      return { b with unbound := ← checkedAdd b.unbound (← checkedAdd potential stored) }

/-- Adds rewards to the unbound mana and closes the total. -/
def closeInputs (b : Balance) (rewards : Mana) : Except ArithmeticError Balance := do
  let b := { b with rewards, unbound := ← checkedAdd b.unbound rewards }
  return { b with total := ← checkedAdd b.potential b.stored }

/-- The mana of inputs and rewards at the target slot. -/
def balanceOf (p : Protocol) (target : SlotIndex) (inputs : List Consumed) (rewards : Mana) :
    Except ManaError Balance := do
  let b ← inputs.foldlM (p.addInput target) {}
  ManaSchedule.checked (closeInputs b rewards)

/-! ## Claims -/

/-- The account that an output's mana stays bound to: an account output's own, and otherwise the
account that alone can unlock the output, if it stays locked until no earlier slot can be committed to. -/
def boundAccount? (p : Protocol) (creationSlot : SlotIndex) (output : Output) : Option AccountId :=
  match output.accountId? with
  | some account => some account
  | none =>
    let horizon := min (creationSlot.toNat + p.parameters.maxCommittableAge.toNat) (UInt32.size - 1)
    if output.conditions.isLockedUntil (.ofNat horizon) then
      match output.conditions.address with
      | some (.account account) => some account
      | _ => none
    else none

/-- Takes the mana that an output stores. -/
def takeOutput (p : Protocol) (creationSlot : SlotIndex) (b : Balance) (output : Output) :
    Except ArithmeticError Balance :=
  match p.boundAccount? creationSlot output with
  | some account => b.takeBound account output.storedMana
  | none => b.takeUnbound output.storedMana

/-- What outputs and allotments of a transaction leave of the mana of its inputs. -/
def balanceAfter (p : Protocol) (target : SlotIndex) (inputs : List Consumed) (rewards : Mana)
    (t : Transaction) : Except ManaError Balance := do
  let b ← p.balanceOf target inputs rewards
  ManaSchedule.checked do
    let b ← t.outputs.foldlM (p.takeOutput t.creationSlot) b
    t.allotments.entries.foldlM (fun b a => b.takeBound a.accountId a.mana) b

end Protocol

end ManaWallet
