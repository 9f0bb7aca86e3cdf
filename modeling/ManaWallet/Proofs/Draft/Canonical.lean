import ManaWallet.Proofs.Arithmetic.Totals
import ManaWallet.Proofs.Draft.Failing
import Mathlib.Algebra.Order.BigOperators.Group.List

/-!
# Proofs/Draft/Canonical — a built transaction shows no order of calls

    contexts, rewards, allotments ──added in any order──▸ draft ──build──▸ one transaction

Calls that add context inputs, rewards and allotments are checked one by one, and an account's allotments
are merged where its entry stands.  All the same they fail exactly if some total does not fit
(`run_unfailed_iff`), and leave the same context inputs and entries in some order (`Adds.perm_contexts`,
`Adds.perm_entries`), of which sorting leaves one (`build_eq_of_perm`).
-/

namespace ManaWallet

namespace Call

/-! ## Calls that add up -/

/-- Whether a call only adds to context inputs, rewards and allotments. -/
def isAdditive : Call → Bool
  | .addCommitment _ | .addBlockIssuanceCredit _ | .addReward _ _ | .increaseAllotment _ _ => true
  | _ => false

/-- The context input that a call adds. -/
def context? : Call → Option ContextInput
  | .addCommitment id => some (.commitment id)
  | .addBlockIssuanceCredit account => some (.blockIssuanceCredit account)
  | .addReward index _ => some (.reward index)
  | _ => none

/-- The rewards that a call claims. -/
def reward : Call → ℕ
  | .addReward _ mana => mana.toNat
  | _ => 0

/-- What a call allots an account. -/
def allotted : Call → AccountId → ℕ
  | .increaseAllotment account mana, x => if account = x then mana.toNat else 0
  | _, _ => 0

/-- The context inputs that calls add, in their order. -/
def contexts (calls : List Call) : List ContextInput := calls.filterMap context?

/-- The rewards that calls claim in total. -/
def rewards (calls : List Call) : ℕ := (calls.map reward).sum

/-- What calls allot an account in total. -/
def totalOf (calls : List Call) (account : AccountId) : ℕ := (calls.map (allotted · account)).sum

variable {calls rest : List Call}

theorem contexts_append : contexts (calls ++ rest) = contexts calls ++ contexts rest :=
  List.filterMap_append

theorem rewards_append : rewards (calls ++ rest) = rewards calls + rewards rest := by
  rw [rewards, List.map_append, List.sum_append, rewards, rewards]

theorem totalOf_append (account : AccountId) :
    totalOf (calls ++ rest) account = totalOf calls account + totalOf rest account := by
  rw [totalOf, List.map_append, List.sum_append, totalOf, totalOf]

theorem totalOf_singleton (c : Call) : totalOf [c] = c.allotted := funext fun _ => Nat.add_zero _

/-- Totals do not depend on the order of calls. -/
theorem totals_perm (h : calls.Perm rest) :
    rewards calls = rewards rest ∧ totalOf calls = totalOf rest :=
  ⟨(h.map _).sum_eq, funext fun _ => (h.map _).sum_eq⟩

end Call

namespace Draft

variable {d d' d'' : Draft} {calls rest : List Call}

/-- A draft with what calls add to it in total. -/
structure Adds (d : Draft) (calls : List Call) (d' : Draft) : Prop where
  contexts : d'.contextInputs = d.contextInputs ++ Call.contexts calls
  rewards : d'.rewards.toNat = d.rewards.toNat + Call.rewards calls
  allotments : d.allotments.Gains d'.allotments (Call.totalOf calls)
  rest : d' = { d with
    contextInputs := d'.contextInputs
    rewards := d'.rewards
    allotments := d'.allotments
    failure := none }

/-- A draft in which no total overflows when calls add to it. -/
structure Admits (d : Draft) (calls : List Call) : Prop where
  rewards : d.rewards.toNat + Call.rewards calls < 2 ^ 64
  allotments : ∀ x, (d.allotments.manaOf x).toNat + Call.totalOf calls x < 2 ^ 64

namespace Adds

theorem nil (hd : d.failure = none) : d.Adds [] d :=
  ⟨(List.append_nil _).symm, rfl, .refl _, hd ▸ rfl⟩

/-- What is added adds up. -/
theorem append (h : d.Adds calls d') (h' : d'.Adds rest d'') : d.Adds (calls ++ rest) d'' where
  contexts := by rw [h'.contexts, h.contexts, Call.contexts_append, List.append_assoc]
  rewards := by rw [h'.rewards, h.rewards, Call.rewards_append, Nat.add_assoc]
  allotments := by
    simpa only [← Call.totalOf_append] using h.allotments.trans h'.allotments
  rest := by rw [h'.rest, h.rest]

/-- Totals that were added fit. -/
theorem admits (h : d.Adds calls d') : d.Admits calls where
  rewards := h.rewards ▸ d'.rewards.toNat_lt
  allotments x := h.allotments.mana x ▸ (d'.allotments.manaOf x).toNat_lt

/-- A draft that admits calls admits the rest of them, once a part has been added. -/
theorem admits_rest (h : d.Adds calls d') (hall : d.Admits (calls ++ rest)) : d'.Admits rest where
  rewards := by
    rw [h.rewards, Nat.add_assoc, ← Call.rewards_append]
    exact hall.rewards
  allotments x := by
    rw [h.allotments.mana, Nat.add_assoc, ← Call.totalOf_append]
    exact hall.allotments x

end Adds

/-- A draft that admits calls admits a part of them. -/
theorem Admits.of_append (h : d.Admits (calls ++ rest)) : d.Admits calls where
  rewards := by
    have hall := h.rewards
    rw [Call.rewards_append] at hall
    omega
  allotments x := by
    have hall := h.allotments x
    rw [Call.totalOf_append] at hall
    omega

/-- Whether a draft admits calls does not depend on their order. -/
theorem Admits.perm (h : d.Admits calls) (hperm : calls.Perm rest) : d.Admits rest where
  rewards := (Call.totals_perm hperm).1 ▸ h.rewards
  allotments := (Call.totals_perm hperm).2 ▸ h.allotments

/-! ## One call -/

/-- An operation adds what it adds to a draft where nothing has failed before. -/
theorem Adds.of_apply {operation : Draft → Outcome} (h : (d.apply operation).failure = none)
    (hrun : (operation d).failure = none → d.Adds calls { (operation d).draft with failure := none }) :
    d.Adds calls (d.apply operation) := by
  obtain ⟨-, hok, heq⟩ := apply_succeeds h
  rw [heq]
  exact hrun hok

/-- **One call** adds what it says. -/
theorem adds_call {c : Call} (hadd : c.isAdditive) (h : (d.call c).failure = none) :
    d.Adds [c] (d.call c) := by
  cases c with
  | addCommitment | addBlockIssuanceCredit =>
    exact .of_apply h fun _ => ⟨rfl, rfl, .refl _, rfl⟩
  | addReward index mana =>
    refine .of_apply h fun hrun => ?_
    obtain ⟨rewards, hrewards, -, hdraft⟩ := proceed_succeeds hrun
    rw [mapError_eq_ok_iff, checkedAdd_eq_ok_iff] at hrewards
    rw [hdraft]
    exact ⟨rfl, hrewards, .refl _, rfl⟩
  | increaseAllotment account mana =>
    refine .of_apply h fun hrun => ?_
    obtain ⟨allotments, hdraft, hgains⟩ := allot_succeeds hrun
    rw [hdraft]
    exact ⟨(List.append_nil _).symm, rfl, Call.totalOf_singleton _ ▸ hgains, rfl⟩
  | _ => nomatch hadd

/-- **A call succeeds where its totals fit.** -/
theorem call_unfailed {c : Call} (hd : d.failure = none) (hadd : c.isAdditive)
    (hadmits : d.Admits [c]) : (d.call c).failure = none := by
  cases h : (d.call c).failure with
  | none => rfl
  | some e =>
    cases c with
    | addCommitment | addBlockIssuanceCredit => exact nomatch (apply_fails hd h).1
    | addReward index mana =>
      obtain ⟨rewards, hrewards⟩ := exists_word hadmits.rewards
      have hsum : checkedAdd d.rewards mana = .ok rewards := checkedAdd_eq_ok_iff.mpr hrewards
      obtain ⟨hfails, -⟩ := apply_fails hd h
      rw [hsum] at hfails
      nomatch hfails
    | increaseAllotment account mana =>
      have hfits := hadmits.allotments account
      obtain ⟨-, hover, -⟩ := allot_fails (apply_fails hd h).1
      rw [Call.totalOf_singleton, Call.allotted, if_pos rfl] at hfits
      exact absurd hfits (Nat.not_lt.mpr hover)
    | _ => nomatch hadd

/-! ## Every sequence of calls -/

/-- Calls that were made added what they say in total. -/
theorem adds_run (hd : d.failure = none) (hadd : ∀ c ∈ calls, c.isAdditive)
    (h : (d.run calls).failure = none) : d.Adds calls (d.run calls) := by
  induction calls generalizing d with
  | nil => exact .nil hd
  | cons c rest ih =>
    obtain ⟨hc, hrest⟩ := List.forall_mem_cons.mp hadd
    have hcall : (d.call c).failure = none := unfailed_of_run (d := d.call c) h
    exact (adds_call hc hcall).append (ih hcall hrest h)

/-- Calls succeed where their totals fit: each needs a part of the room. -/
theorem run_unfailed (hd : d.failure = none) (hadd : ∀ c ∈ calls, c.isAdditive)
    (h : d.Admits calls) : (d.run calls).failure = none := by
  induction calls generalizing d with
  | nil => exact hd
  | cons c rest ih =>
    obtain ⟨hc, hrest⟩ := List.forall_mem_cons.mp hadd
    rw [← List.singleton_append] at h
    have hcall := call_unfailed hd hc h.of_append
    exact ih hcall hrest ((adds_call hc hcall).admits_rest h)

/-- **When calls fail**: exactly if what they add to the rewards or to some account does not fit. -/
theorem run_unfailed_iff (hd : d.failure = none) (hadd : ∀ c ∈ calls, c.isAdditive) :
    (d.run calls).failure = none ↔ d.Admits calls :=
  ⟨fun h => (adds_run hd hadd h).admits, run_unfailed hd hadd⟩

/-! ## Building -/

namespace Adds

variable {calls' : List Call}

/-- Calls in another order leave the same context inputs in another order. -/
theorem perm_contexts (h : d.Adds calls d') (h' : d.Adds calls' d'') (hperm : calls.Perm calls') :
    d'.contextInputs.Perm d''.contextInputs := by
  rw [h.contexts, h'.contexts]
  exact (hperm.filterMap _).append_left _

/-- Calls in another order leave the same entries in another order. -/
theorem perm_entries (h : d.Adds calls d') (h' : d.Adds calls' d'') (hperm : calls.Perm calls') :
    d'.allotments.entries.Perm d''.allotments.entries := by
  have htotals := (Call.totals_perm hperm).2
  refine Allotments.perm_entries (Finset.ext fun x => ?_) fun x => ?_
  · rw [h.allotments.accounts, h'.allotments.accounts, htotals]
  · rw [← UInt64.toNat_inj, h.allotments.mana, h'.allotments.mana, htotals]

/-- **What is built shows no order of calls.** -/
theorem build_eq_of_perm (h : d.Adds calls d') (h' : d.Adds calls' d'') (hperm : calls.Perm calls')
    (mode : SigningMode) : d'.build mode = d''.build mode := by
  have hcontexts : sortAscending d'.contextInputs = sortAscending d''.contextInputs :=
    sortAscending_eq_of_perm (h.perm_contexts h' hperm) fun _ _ _ _ => sortKey_injective_contextInput
  have hallotments := Allotments.sorted_eq_of_perm (h.perm_entries h' hperm)
  rw [h.rest, h'.rest]
  simp only [build, finalTransaction, transaction, hcontexts, hallotments]

end Adds

/-- A transaction that is the draft's in canonical form. -/
structure Finalizes (d : Draft) (t : Transaction) : Prop where
  allotments : t.allotments.entries.Perm d.allotments.entries
  /-- Accounts ascend, and each of them is named once. -/
  ascending : t.allotments.entries.Pairwise fun x y => compare x.accountId y.accountId = .lt
  contexts : t.contextInputs.Perm d.contextInputs
  sorted : t.contextInputs.Pairwise fun x y => (compareOn sortKey x y).isLE
  inputs : t.inputs = d.inputs.map Input.outputId
  /-- The digests of the outputs consumed, in their order, are digested in turn. -/
  inputsCommitment : t.inputsCommitment
    = blake3 (d.inputs.flatMap fun input => (blake3 (encode input.output)).toList)
  outputs : t.outputs = d.outputs
  payload : t.payload = d.payload
  capabilities : t.capabilities = d.capabilities
  networkId : t.networkId = d.protocol.parameters.networkId
  creationSlot : t.creationSlot = d.creationSlot

/-- The final form of a draft is canonical. -/
theorem finalizes_build {mode : SigningMode} {s : SignedTransaction} (h : d.build mode = .ok s) :
    d.Finalizes s.transaction := by
  rw [(build_eq_ok h).1]
  exact ⟨perm_sortAscending _, d.allotments.ascending_sorted, perm_sortAscending _,
    pairwise_sortAscending _, rfl, congrArg blake3 (List.flatMap_map _ _ _), rfl, rfl, rfl, rfl, rfl⟩

/-! ## Entries of every draft -/

/-- A run of calls adds no entry of nothing. -/
theorem positive_run (hpositive : d.allotments.Positive) (h : (d.run calls).failure = none) :
    (d.run calls).allotments.Positive := by
  induction calls generalizing d with
  | nil => exact hpositive
  | cons c rest ih =>
    have hcall : (d.call c).failure = none := unfailed_of_run (d := d.call c) h
    obtain ⟨-, more, hgains⟩ := call_succeeds hcall
    exact ih (hgains.positive hpositive) h

/-- A draft that calls have made. -/
def Reached (d : Draft) : Prop := ∃ protocol signer calls, (start protocol signer).run calls = d

/-- **Built transactions are canonical.**  Drafts name an account once and allot it something; what is built
is the draft's with both lists sorted; and calls that add context inputs, rewards and allotments fail or
succeed in any order alike, and then build the same. -/
theorem build_canonical (d : Draft) :
    (d.Reached → d.failure = none →
      (d.allotments.entries.map Allotment.accountId).Nodup ∧ d.allotments.Positive) ∧
    (∀ mode s, d.build mode = .ok s → d.Finalizes s.transaction) ∧
    (d.failure = none → ∀ calls calls', (∀ c ∈ calls, c.isAdditive) → calls.Perm calls' →
      ((∃ e, (d.run calls).failure = some e) ↔ ∃ e, (d.run calls').failure = some e) ∧
      ((d.run calls).failure = none → ∀ mode, (d.run calls).build mode = (d.run calls').build mode)) := by
  refine ⟨?_, fun mode s => finalizes_build, ?_⟩
  · rintro ⟨protocol, signer, calls, rfl⟩ hok
    exact ⟨Allotments.nodup _, positive_run (d := start protocol signer) nofun hok⟩
  · intro hd calls calls' hadd hperm
    have hadd' : ∀ c ∈ calls', c.isAdditive := fun c hc => hadd c (hperm.mem_iff.mpr hc)
    have hiff : (d.run calls).failure = none ↔ (d.run calls').failure = none := by
      rw [run_unfailed_iff hd hadd, run_unfailed_iff hd hadd']
      exact ⟨fun h => h.perm hperm, fun h => h.perm hperm.symm⟩
    refine ⟨?_, fun hok mode => ?_⟩
    · rw [← Option.ne_none_iff_exists', ← Option.ne_none_iff_exists', ne_eq, ne_eq, hiff]
    · exact (adds_run hd hadd hok).build_eq_of_perm (adds_run hd hadd' (hiff.mp hok)) hperm mode

end Draft

/-- The wallet, given input by input. -/
def sampleWallet : Draft := (Draft.start .standard sampleSigner).run (sampleInputs.map Call.addInput)

/-- Two accounts are allotted mana, one of them twice, between context inputs. -/
def sampleAdditions : List Call :=
  [.increaseAllotment otherAccount 3, .addReward 0 5, .increaseAllotment sampleAccount 2,
    .addCommitment ⟨.zero 32, 0⟩, .increaseAllotment sampleAccount 4]

/-- The two orders leave the entries in two orders, and one transaction. -/
theorem build_canonical_sample :
    sampleWallet.allotments.Positive ∧ (sampleWallet.run sampleAdditions).failure = none ∧
      (sampleWallet.run sampleAdditions).allotments
        ≠ (sampleWallet.run sampleAdditions.reverse).allotments ∧
      ∃ s, (sampleWallet.run sampleAdditions).build .sign = .ok s ∧
        (sampleWallet.run sampleAdditions.reverse).build .sign = .ok s ∧
        (sampleWallet.run sampleAdditions).Finalizes s.transaction := by
  obtain ⟨hreached, -, horder⟩ := Draft.build_canonical sampleWallet
  obtain ⟨-, hbuilt, -⟩ := Draft.build_canonical (sampleWallet.run sampleAdditions)
  have hok : sampleWallet.failure = none := by decide +kernel
  have hadded : (sampleWallet.run sampleAdditions).failure = none := by decide +kernel
  obtain ⟨-, hsame⟩ := horder hok sampleAdditions sampleAdditions.reverse (by decide)
    (List.reverse_perm _).symm
  have hinputs : (sampleWallet.run sampleAdditions).inputs = sampleInputs := by rfl
  obtain ⟨s, hs⟩ : ∃ s, (sampleWallet.run sampleAdditions).build .sign = .ok s :=
    ⟨_, Draft.build_eq_ok_iff.mpr
      ⟨hadded, _, hinputs ▸ unlocksOf_sampleInputs .sign _, rfl⟩⟩
  exact ⟨(hreached ⟨_, _, _, rfl⟩ hok).2, hadded, by decide +kernel, s, hs,
    (hsame hadded .sign).symm.trans hs, hbuilt .sign s hs⟩

end ManaWallet
