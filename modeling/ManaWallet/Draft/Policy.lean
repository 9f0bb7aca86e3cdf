import ManaWallet.Draft.Basic

/-!
# Draft/Policy — handing out the mana that is left

| policy | bound mana | unbound mana |
|--------|------------|--------------|
| `allotBound` | to its accounts, some left out | stays |
| `allotAll` | to its accounts | to one account |
| `storeRest` | to an output of its account, else to its accounts | to the output |
| `payAndStoreRest` | first to the issuer what a block costs, then as `storeRest` | |

A policy looks at the balance before it changes anything.  Mana is then handed out step by step; a sum
that overflows ends it with the steps before it done.
-/

namespace ManaWallet

namespace Balance

/-- The bound mana of accounts that are not left out, in ascending order of accounts. -/
def shares (b : Balance) (leftOut : List AccountId) : List Allotment :=
  b.bound.toList.filterMap fun (account, mana) =>
    if account ∈ leftOut ∨ mana = 0 then none else some ⟨account, mana⟩

end Balance

namespace Draft

/-- Allots the accounts their bound mana, in ascending order of accounts; with it the allotments made. -/
def allotShares (d : Draft) (b : Balance) (leftOut : List AccountId) : Outcome × List Allotment :=
  let progress := d.allotments.increaseAll (b.shares leftOut)
  (⟨{ d with allotments := progress.allotments }, progress.failure.map .arithmetic⟩, progress.made)

/-! ## Bound mana to its accounts -/

/-- Allots every account its bound mana, except the accounts left out; with it the allotments made. -/
def allotBoundReporting (d : Draft) (slot : SlotIndex) (leftOut : List AccountId) :
    Draft × List Allotment :=
  match d.failure, d.balanceLeft slot with
  | some _, _ => (d, [])
  | none, .error e => ({ d with failure := some e }, [])
  | none, .ok b =>
    let (o, made) := d.allotShares b leftOut
    ({ o.draft with failure := o.failure }, made)

/-- Allots every account its bound mana, except the accounts left out. -/
def allotBound (d : Draft) (slot : SlotIndex) (leftOut : List AccountId) : Draft :=
  (d.allotBoundReporting slot leftOut).1

/-! ## All mana to accounts -/

/-- The balance and the mana that would go to an account if it got all the unbound mana; refused below
a minimum. -/
def routable (d : Draft) (slot : SlotIndex) (account : AccountId) (minimum : Mana) :
    Except DraftError (Balance × Mana) := do
  let b ← d.balanceLeft slot
  let routed ← (checkedAdd b.unbound (b.boundTo account)).mapError .arithmetic
  if routed < minimum then throw (.notEnoughMana minimum routed)
  return (b, routed)

/-- Allots all mana: bound mana to its accounts, unbound mana to one account, which must get the minimum
at least. -/
def allotAll (d : Draft) (slot : SlotIndex) (account : AccountId) (minimum : Mana) : Draft :=
  d.apply fun d => d.proceed (d.routable slot account minimum) fun (b, routed) =>
    (d.allotShares b [account]).1.andThen fun d => d.allot account routed

/-! ## The rest into an output -/

/-- The balance, the output at a place with the mana left added to what it stores, and the account it
belongs to.  The mana left is the unbound mana and what is bound to that account. -/
def storable (d : Draft) (slot : SlotIndex) (index : Nat) :
    Except DraftError (Balance × Output × Option AccountId) := do
  let some output := d.outputs[index]? | throw (.outputIndexOutOfRange index d.outputs.length)
  let own := output.accountId?.filter fun account => !account.isEmpty
  let b ← d.balanceLeft slot
  let rest ← (checkedAdd b.unbound (own.elim 0 b.boundTo)).mapError .arithmetic
  let some held := output.body.mana? | throw (.outputCannotHoldMana index output.kind)
  let mana ← (checkedAdd held rest).mapError .arithmetic
  return (b, output.withStoredMana mana, own)

/-- Stores the mana left in the output at a place and allots the other bound mana. -/
def store (d : Draft) (slot : SlotIndex) (index : Nat) : Outcome :=
  d.proceed (d.storable slot index) fun (b, output, own) =>
    ({ d with outputs := d.outputs.set index output }.allotShares b own.toList).1

/-- Stores the mana left in the output at a place and allots the other bound mana. -/
def storeRest (d : Draft) (slot : SlotIndex) (index : Nat) : Draft :=
  d.apply fun d => d.store slot index

/-! ## The cost of a block -/

/-- What a block with the draft as payload costs its issuer, whose allotment is counted in.  Places of
signatures are filled without signing. -/
def blockCost (d : Draft) (referenceManaCost : Mana) (issuer : AccountId) :
    Except DraftError Mana := do
  let allotments ← (d.allotments.increase issuer 1).mapError .arithmetic
  let signed ← { d with allotments }.build .placeholder
  let block : BlockDraft := {
    protocol := d.protocol
    issuerId := issuer
    payload := some (.signed signed) }
  block.cost referenceManaCost

/-- The mana that the issuer still has to be allotted for a block with the draft as payload. -/
def missingForBlock (d : Draft) (referenceManaCost : Mana) (issuer : AccountId) :
    Except DraftError Mana :=
  match d.failure with
  | some e => .error e
  | none =>
    (d.blockCost referenceManaCost issuer).map fun cost =>
      let allotted := d.allotments.manaOf issuer
      if allotted ≤ cost then cost - allotted else 0

/-- What a question put to a draft leaves: the draft as it is then, and the answer. -/
structure Answered where
  draft : Draft
  answer : Except DraftError Mana

/-- Enters a least allotment of the issuer into the draft, which stays there, and asks what a block with
the draft as payload costs. -/
def enterIssuer (d : Draft) (referenceManaCost : Mana) (issuer : AccountId) : Answered :=
  match d.allotments.increase issuer 1 with
  | .error e => ⟨d, .error (.arithmetic e)⟩
  | .ok allotments =>
    let entered := { d with allotments }
    ⟨entered, do
      let signed ← entered.build .placeholder
      let block : BlockDraft := {
        protocol := entered.protocol
        issuerId := issuer
        payload := some (.signed signed) }
      block.cost referenceManaCost⟩

/-- Asks the draft itself for the mana that the issuer still has to be allotted.  The issuer's entry is
in the draft while the block is priced, and the allotments of before are put back whatever comes of it. -/
def askMissing (d : Draft) (referenceManaCost : Mana) (issuer : AccountId) : Answered :=
  match d.failure with
  | some e => ⟨d, .error e⟩
  | none =>
    let snapshot := d.allotments
    let asked := d.enterIssuer referenceManaCost issuer
    let restored := { asked.draft with allotments := snapshot }
    ⟨restored, asked.answer.map fun cost =>
      let allotted := restored.allotments.manaOf issuer
      if allotted ≤ cost then cost - allotted else 0⟩

/-- Allots the issuer what a block with the draft as payload costs, stores the mana left in the output
at a place and allots the other bound mana. -/
def payAndStoreRest (d : Draft) (slot : SlotIndex) (referenceManaCost : Mana) (issuer : AccountId)
    (index : Nat) : Draft :=
  d.apply fun d => d.proceed (d.missingForBlock referenceManaCost issuer) fun missing =>
    (d.allot issuer missing).andThen fun d => d.store slot index

end Draft

end ManaWallet
