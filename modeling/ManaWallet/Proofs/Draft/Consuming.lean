import ManaWallet.Proofs.Draft.Draining
import ManaWallet.Proofs.Draft.Estimate

/-!
# Proofs/Draft/Consuming — what a draft consumes after any sequence of calls

    calls ──addInput──▸ inputs, one for each time a name is given ──balance──▸ their mana, as often

A name that is given again is listed again, and both of its inputs are the one given last
(`Consumes.run`).  So the balance counts an output as often as its name was given: every output once,
exactly if no name of an output that holds mana was given again (`balance_counts_as_given`).  Policies
hand out that balance; a repeated name lets them hand out mana that is not there
(`repeated_input_counts_twice`).
-/

namespace ManaWallet

/-! ## Calls -/

/-- What may be asked of a draft in the making. -/
inductive Call where
  | addInput (input : Input)
  | addOutput (output : Output)
  | addCommitment (id : CommitmentId)
  | addBlockIssuanceCredit (account : AccountId)
  | addReward (index : UInt16) (mana : Mana)
  | setPayload (payload : TaggedData)
  | setCapabilities (capabilities : TransactionCapabilities)
  | setCreationSlot (slot : SlotIndex)
  | increaseAllotment (account : AccountId) (mana : Mana)
  | allotBound (slot : SlotIndex) (leftOut : List AccountId)
  | allotAll (slot : SlotIndex) (account : AccountId) (minimum : Mana)
  | storeRest (slot : SlotIndex) (index : Nat)
  | payAndStoreRest (slot : SlotIndex) (referenceManaCost : Mana) (issuer : AccountId) (index : Nat)
  | askMissing (referenceManaCost : Mana) (issuer : AccountId)

namespace Call

/-- The input that a call gives. -/
def input? : Call → Option Input
  | .addInput input => some input
  | _ => none

/-- The inputs that calls give, in their order. -/
def given (calls : List Call) : List Input := calls.filterMap input?

/-- The names that calls give, in their order. -/
def names (calls : List Call) : List OutputId := (given calls).map Input.outputId

end Call

namespace Draft

variable {d : Draft}

/-- The draft after a call. -/
def call (d : Draft) : Call → Draft
  | .addInput input => d.addInput input
  | .addOutput output => d.addOutput output
  | .addCommitment id => d.addCommitment id
  | .addBlockIssuanceCredit account => d.addBlockIssuanceCredit account
  | .addReward index mana => d.addReward index mana
  | .setPayload payload => d.setPayload payload
  | .setCapabilities capabilities => d.setCapabilities capabilities
  | .setCreationSlot slot => d.setCreationSlot slot
  | .increaseAllotment account mana => d.increaseAllotment account mana
  | .allotBound slot leftOut => d.allotBound slot leftOut
  | .allotAll slot account minimum => d.allotAll slot account minimum
  | .storeRest slot index => d.storeRest slot index
  | .payAndStoreRest slot cost issuer index => d.payAndStoreRest slot cost issuer index
  | .askMissing cost issuer => (d.askMissing cost issuer).draft

/-- The draft after a sequence of calls. -/
def run (d : Draft) (calls : List Call) : Draft := calls.foldl call d

/-! ## One call -/

/-- A further input in a list: earlier inputs of its name become the same. -/
def place (inputs : List Input) (input : Input) : List Input :=
  inputs.map (fun i => if i.outputId = input.outputId then input else i) ++ [input]

/-- What a call that leaves no failure has done to the inputs. -/
structure Follows (d : Draft) (c : Call) (d' : Draft) : Prop where
  unfailed : d.failure = none
  protocol : d'.protocol = d.protocol
  inputs : d'.inputs = c.input?.elim d.inputs (place d.inputs)

/-- An operation does to inputs and allotments what it does to them where nothing has failed before. -/
theorem follows_of_apply {c : Call} {operation : Draft → Outcome}
    (h : (d.apply operation).failure = none)
    (hrun : (operation d).failure = none → (operation d).draft.protocol = d.protocol ∧
      (operation d).draft.inputs = c.input?.elim d.inputs (place d.inputs) ∧
      ∃ more, d.allotments.Gains (operation d).draft.allotments more) :
    d.Follows c (d.apply operation) ∧
      ∃ more, d.allotments.Gains (d.apply operation).allotments more := by
  obtain ⟨hnone, hok, heq⟩ := apply_succeeds h
  obtain ⟨hprotocol, hinputs, hgains⟩ := hrun hok
  rw [heq]
  exact ⟨⟨hnone, hprotocol, hinputs⟩, hgains⟩

/-- **One call** gives the draft an input or leaves its inputs, and accounts gain by what it allots. -/
theorem call_succeeds {c : Call} (h : (d.call c).failure = none) :
    d.Follows c (d.call c) ∧ ∃ more, d.allotments.Gains (d.call c).allotments more := by
  cases c with
  | addInput | addOutput | addCommitment | addBlockIssuanceCredit | setPayload | setCapabilities
  | setCreationSlot => exact follows_of_apply h fun _ => ⟨rfl, rfl, _, .refl _⟩
  | addReward index mana =>
    refine follows_of_apply h fun hrun => ?_
    obtain ⟨rewards, -, -, hdraft⟩ := proceed_succeeds hrun
    rw [hdraft]
    exact ⟨rfl, rfl, _, .refl _⟩
  | increaseAllotment account mana =>
    refine follows_of_apply h fun hrun => ?_
    obtain ⟨allotments, hdraft, hgains⟩ := allot_succeeds hrun
    rw [hdraft]
    exact ⟨rfl, rfl, _, hgains⟩
  | allotBound slot leftOut =>
    obtain ⟨hnone, _, allotments, -, heq, hgains⟩ := allotBound_succeeds h
    rw [call, heq]
    exact ⟨⟨hnone, rfl, rfl⟩, _, hgains⟩
  | allotAll slot account minimum =>
    obtain ⟨_, allotments, -, heq, hgains⟩ := allotAll_succeeds h
    rw [call, heq]
    exact ⟨⟨(apply_succeeds h).1, rfl, rfl⟩, _, hgains⟩
  | storeRest slot index =>
    obtain ⟨hstore, heq⟩ := storeRest_succeeds h
    obtain ⟨_, _, _, _, _, -, -, -, -, hdraft, hgains⟩ := store_succeeds hstore
    rw [hdraft] at heq
    rw [call, heq]
    exact ⟨⟨(apply_succeeds h).1, rfl, rfl⟩, _, hgains⟩
  | payAndStoreRest slot cost issuer index =>
    obtain ⟨_, _, -, hpaid, hstore, heq⟩ := payAndStoreRest_succeeds h
    obtain ⟨_, _, _, _, _, -, -, -, -, hdraft, hgains⟩ := store_succeeds hstore
    rw [hdraft] at heq
    rw [call, heq]
    exact ⟨⟨(apply_succeeds h).1, rfl, rfl⟩, _, hpaid.trans hgains⟩
  | askMissing cost issuer =>
    have heq : d.call (.askMissing cost issuer) = d := congrArg Answered.draft (askMissing_eq d cost issuer)
    rw [heq] at h ⊢
    exact ⟨⟨h, rfl, rfl⟩, _, .refl _⟩

/-! ## Every sequence of calls -/

/-- The inputs of a draft are the ones given, in their order, and each is the last of its name. -/
structure Consumes (d : Draft) (given : List Input) : Prop where
  names : d.inputs.map Input.outputId = given.map Input.outputId
  latest : ∀ input ∈ d.inputs, given.reverse.find? (·.outputId = input.outputId) = some input

/-- Inputs of one name are one input. -/
theorem Consumes.eq_of_outputId {given : List Input} (h : d.Consumes given) {i j : Input}
    (hi : i ∈ d.inputs) (hj : j ∈ d.inputs) (heq : i.outputId = j.outputId) : i = j :=
  Option.some.inj ((h.latest i hi).symm.trans (heq ▸ h.latest j hj))

/-- A further input is listed, and the last of its name. -/
theorem Consumes.place {d' : Draft} {given : List Input} {input : Input} (h : d.Consumes given)
    (hinputs : d'.inputs = place d.inputs input) : d'.Consumes (given ++ [input]) := by
  constructor
  · rw [hinputs, Draft.place, List.map_append, List.map_append, ← h.names, List.map_map]
    congr 1
    refine List.map_congr_left fun i _ => ?_
    rw [Function.comp_apply]
    split
    · next heq => exact heq.symm
    · rfl
  · intro i hi
    rw [List.reverse_append, List.reverse_singleton, List.singleton_append, List.find?_cons]
    rw [hinputs, Draft.place, List.mem_append, List.mem_singleton, List.mem_map] at hi
    obtain ⟨earlier, hearlier, rfl⟩ | rfl := hi
    · by_cases heq : earlier.outputId = input.outputId
      · simp [heq]
      · simp [heq, Ne.symm heq, h.latest earlier hearlier]
    · simp

/-- One call keeps the inputs those given. -/
theorem Consumes.call {given : List Input} {c : Call} (h : d.Consumes given)
    (hok : (d.call c).failure = none) : (d.call c).Consumes (given ++ Call.given [c]) := by
  have hinputs := (call_succeeds hok).1.inputs
  cases hinput : c.input? with
  | none =>
    rw [hinput] at hinputs
    have hgiven : Call.given [c] = [] := by simp [Call.given, hinput]
    rw [hgiven, List.append_nil]
    exact ⟨hinputs ▸ h.names, hinputs ▸ h.latest⟩
  | some input =>
    rw [hinput] at hinputs
    have hgiven : Call.given [c] = [input] := by simp [Call.given, hinput]
    rw [hgiven]
    exact h.place hinputs

/-- A run without failure had none before. -/
theorem unfailed_of_run {calls : List Call} (h : (d.run calls).failure = none) :
    d.failure = none := by
  induction calls generalizing d with
  | nil => exact h
  | cons c rest ih => exact (call_succeeds (ih h)).1.unfailed

/-- **A run keeps the inputs those given**, and the network. -/
theorem Consumes.run {given : List Input} {calls : List Call} (h : d.Consumes given)
    (hok : (d.run calls).failure = none) :
    (d.run calls).Consumes (given ++ Call.given calls) ∧ (d.run calls).protocol = d.protocol := by
  induction calls generalizing d given with
  | nil => exact ⟨(List.append_nil given).symm ▸ h, rfl⟩
  | cons c rest ih =>
    have hcall : (d.call c).failure = none := unfailed_of_run (d := d.call c) hok
    obtain ⟨hrest, hprotocol⟩ := ih (h.call hcall) hok
    have hgiven : Call.given (c :: rest) = Call.given [c] ++ Call.given rest :=
      @List.filterMap_append _ _ [c] rest Call.input?
    rw [hgiven, ← List.append_assoc]
    exact ⟨hrest, hprotocol.trans (call_succeeds hcall).1.protocol⟩

/-- The empty draft consumes nothing. -/
theorem consumes_start (protocol : Protocol) (signer : Signer) :
    (start protocol signer).Consumes [] :=
  ⟨rfl, fun _ hnone => absurd hnone List.not_mem_nil⟩

/-! ## What the balance counts -/

/-- A balance that counts the mana of every name as often as the name was given. -/
structure Counts (d : Draft) (names : List OutputId) (slot : SlotIndex) (b : Balance)
    (mana : OutputId → ℕ) : Prop where
  worth : ∀ input ∈ d.consumed, d.protocol.manaOf slot input = .ok (mana input.1)
  total : b.total.toNat = ∑ id ∈ names.toFinset, names.count id * mana id
  /-- A draft that is drained hands out all of it. -/
  handedOut : d.Drains slot →
    d.transaction.assigned = (∑ id ∈ names.toFinset, names.count id * mana id) + d.rewards.toNat

/-- The balance counts every name once, exactly if no name of an output with mana was given again. -/
theorem Counts.once_iff {names : List OutputId} {slot : SlotIndex} {b : Balance}
    {mana : OutputId → ℕ} (h : d.Counts names slot b mana) :
    b.total.toNat = ∑ id ∈ names.toFinset, mana id ↔
      ∀ id ∈ names, names.count id = 1 ∨ mana id = 0 := by
  have hle : ∀ id ∈ names.toFinset, mana id ≤ names.count id * mana id := fun id hid =>
    Nat.le_mul_of_pos_left _ (List.count_pos_iff.mpr (List.mem_toFinset.mp hid))
  rw [h.total, eq_comm, Finset.sum_eq_sum_iff_of_le hle]
  refine forall_congr' fun id => ?_
  rw [List.mem_toFinset, eq_comm, mul_left_eq_self₀]

/-- Inputs of one name have one mana. -/
theorem Consumes.exists_manaOf {given : List Input} (h : d.Consumes given) (slot : SlotIndex) :
    ∃ mana : OutputId → ℕ, ∀ input ∈ d.consumed, d.protocol.worthOf slot input = mana input.1 := by
  have hname : ∀ id, ∃ mana, ∀ input ∈ d.inputs, input.outputId = id →
      d.protocol.worthOf slot (input.outputId, input.output) = mana := by
    intro id
    by_cases hlisted : ∃ input ∈ d.inputs, input.outputId = id
    · obtain ⟨input, hinput, rfl⟩ := hlisted
      refine ⟨d.protocol.worthOf slot (input.outputId, input.output), fun other hother heq => ?_⟩
      rw [h.eq_of_outputId hother hinput heq]
    · exact ⟨0, fun input hinput heq => absurd ⟨input, hinput, heq⟩ hlisted⟩
  choose mana hmana using hname
  refine ⟨mana, fun consumed hconsumed => ?_⟩
  obtain ⟨input, hinput, rfl⟩ := List.mem_map.mp hconsumed
  exact hmana input.outputId input hinput rfl

/-- **The balance counts an output as often as its name was given.** -/
theorem Consumes.exists_counts {given : List Input} {slot : SlotIndex} {b : Balance}
    (h : d.Consumes given) (hb : d.balance slot = .ok b) :
    ∃ mana, d.Counts (given.map Input.outputId) slot b mana := by
  obtain ⟨mana, hmana⟩ := h.exists_manaOf slot
  obtain ⟨hworth, htotal, hrewards⟩ := Protocol.total_balanceOf (mapError_eq_ok_iff.mp hb)
  have hsum : b.total.toNat = ∑ id ∈ (given.map Input.outputId).toFinset,
      (given.map Input.outputId).count id * mana id := by
    have hconsumed : d.consumed.map (d.protocol.worthOf slot)
        = (d.inputs.map Input.outputId).map mana := by
      rw [List.map_congr_left hmana, consumed, List.map_map, List.map_map]
      rfl
    rw [htotal, hconsumed, h.names, Finset.sum_list_map_count]
    rfl
  refine ⟨mana, fun input hinput => hmana input hinput ▸ hworth input hinput, hsum, fun hdrains => ?_⟩
  obtain ⟨b₀, hb₀, hassigned⟩ := hdrains.assigned
  obtain rfl := Except.ok.inj (hb.symm.trans hb₀)
  rw [hassigned, hsum, hrewards]

/-- **What a draft holds and counts after any sequence of calls** without failure: its inputs are those
given, a name as often as it was given, and its balance counts the mana of each name that often.  So it
counts every output once, exactly if no name of an output with mana was given again. -/
theorem balance_counts_as_given (protocol : Protocol) (signer : Signer) (calls : List Call)
    (hok : ((start protocol signer).run calls).failure = none) :
    ((start protocol signer).run calls).protocol = protocol ∧
      ((start protocol signer).run calls).Consumes (Call.given calls) ∧
      ∀ slot b, ((start protocol signer).run calls).balance slot = .ok b →
        ∃ mana, ((start protocol signer).run calls).Counts (Call.names calls) slot b mana ∧
          (b.total.toNat = ∑ id ∈ (Call.names calls).toFinset, mana id ↔
            ∀ id ∈ Call.names calls, (Call.names calls).count id = 1 ∨ mana id = 0) := by
  obtain ⟨hconsumes, hprotocol⟩ := (consumes_start protocol signer).run hok
  refine ⟨hprotocol, hconsumes, fun slot b hb => ?_⟩
  obtain ⟨mana, hcounts⟩ := hconsumes.exists_counts hb
  exact ⟨mana, hcounts, hcounts.once_iff⟩

end Draft

/-- An output that stores a mana of 100. -/
def sampleHoard : Input := ⟨⟨⟨.zero 32, 0⟩, 0⟩, .basic 1000000 100 sampleOwner, sampleOwner⟩

/-- The output is given twice, and all mana is allotted. -/
def sampleCalls : List Call :=
  [.addInput sampleHoard, .addInput sampleHoard, .allotAll 0 sampleAccount 0]

/-- The draft after that. -/
def sampleRun : Draft := (Draft.start .standard sampleSigner).run sampleCalls

theorem balance_counts_as_given_sample :
    sampleRun.failure = none ∧ sampleRun.Consumes [sampleHoard, sampleHoard] ∧
      ∃ b mana, sampleRun.balance 0 = .ok b ∧
        sampleRun.Counts [sampleHoard.outputId, sampleHoard.outputId] 0 b mana := by
  have hok : sampleRun.failure = none := by decide +kernel
  have htotal : (sampleRun.balance 0).map Balance.total = .ok 200 := by decide +kernel
  obtain ⟨b, hb, -⟩ := map_eq_ok_iff.mp htotal
  obtain ⟨-, hconsumes, hcounts⟩ :=
    Draft.balance_counts_as_given .standard sampleSigner sampleCalls hok
  obtain ⟨mana, hmana, -⟩ := hcounts 0 b hb
  exact ⟨hok, hconsumes, b, mana, hb, hmana⟩

/-- **An output that counts twice**: no call fails, its name is listed twice, and an output of 100 lets
the draft allot 200. -/
theorem repeated_input_counts_twice :
    sampleRun.failure = none ∧ ¬ (sampleRun.inputs.map Input.outputId).Nodup ∧
      Protocol.standard.manaOf 0 (sampleHoard.outputId, sampleHoard.output) = .ok 100 ∧
      (∃ b, sampleRun.balance 0 = .ok b ∧ b.total = 200) ∧
      sampleRun.allotments.manaOf sampleAccount = 200 := by
  have htotal : (sampleRun.balance 0).map Balance.total = .ok 200 := by decide +kernel
  exact ⟨by decide +kernel, by decide +kernel, by decide +kernel, map_eq_ok_iff.mp htotal,
    by decide +kernel⟩

end ManaWallet
