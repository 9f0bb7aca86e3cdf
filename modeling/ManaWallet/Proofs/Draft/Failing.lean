import ManaWallet.Proofs.Draft.Consuming

/-!
# Proofs/Draft/Failing — what a call that fails leaves behind

| call | done before the step that failed |
|------|----------------------------------|
| `allotAll` | the other accounts are allotted what is bound to them |
| `payAndStoreRest` | the issuer is allotted what a block costs |
| any other | nothing |

A policy that fails is not taken back: what it allotted stays, and nothing else changes (`call_fails`).  Of
the steps that allot, few can be the one that fails: an account never lacks room for what is bound to it,
as what it was allotted before has been taken off that (`increaseAll_shares_succeeds`).
-/

namespace ManaWallet

open Allotment

/-! ## Allotting what is left -/

/-- Accounts that each have room for what they are allotted can be allotted it in turn. -/
theorem Allotments.increaseAll_succeeds {a : Allotments} {steps : List Allotment}
    (hnodup : (steps.map Allotment.accountId).Nodup)
    (hroom : ∀ step ∈ steps, (a.manaOf step.accountId).toNat + step.mana.toNat < UInt64.size) :
    (a.increaseAll steps).failure = none := by
  induction steps generalizing a with
  | nil => rfl
  | cons step rest ih =>
    obtain ⟨hstep, hrest⟩ := List.forall_mem_cons.mp hroom
    obtain ⟨hnew, hnodup'⟩ := List.nodup_cons.mp hnodup
    rw [increaseAll, increase_eq_ok_iff.mpr ⟨hstep, rfl⟩]
    refine ih hnodup' fun other hother => ?_
    have hne : step.accountId ≠ other.accountId := fun heq => hnew (heq ▸ List.mem_map_of_mem hother)
    rw [manaOf_set, if_neg hne]
    exact hrest other hother

namespace Draft

variable {d : Draft} {e : DraftError}

/-- **Every account has room for what is bound to it**: what it was allotted before is not among it. -/
theorem increaseAll_shares_succeeds {slot : SlotIndex} {b : Balance} (h : d.balanceLeft slot = .ok b)
    (leftOut : List AccountId) : (d.allotments.increaseAll (b.shares leftOut)).failure = none := by
  refine Allotments.increaseAll_succeeds (b.nodup_shares leftOut) fun share hshare => ?_
  obtain ⟨hentry, -, hmana⟩ := Balance.mem_shares.mp hshare
  have hafter := mapError_eq_ok_iff.mp h
  obtain ⟨b₀, hinputs, -⟩ := Protocol.exists_balanceAfter_iff.mp ⟨b, hafter⟩
  have hbound := (Protocol.settles_balanceAfter hinputs hafter).boundTo share.accountId
  have hshare' : b.boundTo share.accountId = share.mana := by
    rw [Balance.boundTo_eq, hentry]
    rfl
  rw [hshare', Protocol.claimedOf_eq] at hbound
  have hpos : share.mana.toNat ≠ 0 := fun hzero => hmana (UInt64.toNat_inj.mp hzero)
  have hword := (b₀.boundTo share.accountId).toNat_lt_size
  change (d.transaction.allotments.manaOf share.accountId).toNat + _ < _
  omega

/-! ## Steps that fail -/

theorem apply_fails {operation : Draft → Outcome} (hd : d.failure = none)
    (h : (d.apply operation).failure = some e) :
    (operation d).failure = some e ∧
      d.apply operation = { (operation d).draft with failure := some e } := by
  unfold apply at h ⊢
  rw [hd] at h ⊢
  dsimp only at h ⊢
  exact ⟨h, by rw [h]⟩

theorem proceed_fails {α : Type} {result : Except DraftError α} {next : α → Outcome}
    (h : (d.proceed result next).failure = some e) :
    (result = .error e ∧ (d.proceed result next).draft = d) ∨
      ∃ value, result = .ok value ∧ (next value).failure = some e ∧
        (d.proceed result next).draft = (next value).draft := by
  cases result with
  | error e' =>
    obtain rfl := Option.some.inj h
    exact .inl ⟨rfl, rfl⟩
  | ok value => exact .inr ⟨value, rfl, h, rfl⟩

theorem andThen_fails {o : Outcome} {next : Draft → Outcome}
    (h : (o.andThen next).failure = some e) :
    (o.failure = some e ∧ (o.andThen next).draft = o.draft) ∨
      (o.failure = none ∧ (next o.draft).failure = some e ∧
        (o.andThen next).draft = (next o.draft).draft) := by
  unfold Outcome.andThen at h ⊢
  cases ho : o.failure with
  | some e' =>
    rw [ho] at h
    exact .inl ⟨ho.symm.trans h, rfl⟩
  | none =>
    rw [ho] at h
    exact .inr ⟨rfl, h, rfl⟩

/-- Allotting fails only where the sum overflows, and changes nothing then. -/
theorem allot_fails {account : AccountId} {mana : Mana}
    (h : (d.allot account mana).failure = some e) :
    (d.allot account mana).draft = d ∧
      UInt64.size ≤ (d.allotments.manaOf account).toNat + mana.toNat ∧
      e = .arithmetic (.additionOverflow (d.allotments.manaOf account) mana) := by
  unfold allot at h ⊢
  split at h
  · nomatch h
  · next hne =>
    rw [if_neg hne]
    obtain ⟨hresult, hdraft⟩ | ⟨_, _, hdone, _⟩ := proceed_fails h
    · refine ⟨hdraft, ?_⟩
      unfold Allotments.increase checkedAdd at hresult
      split at hresult
      · nomatch hresult
      · next hover => exact ⟨Nat.not_lt.mp hover, (Except.error.inj hresult).symm⟩
    · nomatch hdone

/-- **Allotting shares of the balance left** cannot fail. -/
theorem allotShares_of_balanceLeft {slot : SlotIndex} {b : Balance} (h : d.balanceLeft slot = .ok b)
    (leftOut : List AccountId) : (d.allotShares b leftOut).1.failure = none :=
  Option.map_eq_none_iff.mpr (increaseAll_shares_succeeds h leftOut)

/-- Storing fails only before anything is stored. -/
theorem store_fails {slot : SlotIndex} {index : Nat} (h : (d.store slot index).failure = some e) :
    d.storable slot index = .error e ∧ (d.store slot index).draft = d := by
  obtain hstorable | ⟨⟨b, output, own⟩, hstorable, hshares, -⟩ := proceed_fails h
  · exact hstorable
  · obtain ⟨_, _, _, _, _, hleft, _⟩ := storable_succeeds hstorable
    have hnone := increaseAll_shares_succeeds hleft own.toList
    exact nomatch (Option.map_eq_none_iff.mpr hnone).symm.trans hshares

/-! ## Calls that fail -/

/-- What a call that fails leaves of a draft. -/
inductive Fails (d : Draft) (e : DraftError) : Call → Draft → Prop where
  /-- Nothing but the failure is new. -/
  | unchanged (c : Call) : d.Fails e c { d with failure := some e }
  /-- The account that all unbound mana goes to has no room for it: the others were allotted theirs. -/
  | routed {slot : SlotIndex} {account : AccountId} {minimum routed : Mana} {b : Balance}
      {shared : Allotments} (hroutable : d.routable slot account minimum = .ok (b, routed))
      (hshared : d.allotments.Gains shared fun x => if x = account then 0 else (b.boundTo x).toNat)
      (hover : UInt64.size ≤ (d.allotments.manaOf account).toNat + routed.toNat)
      (hfailure : e = .arithmetic (.additionOverflow (d.allotments.manaOf account) routed)) :
      d.Fails e (.allotAll slot account minimum) { d with allotments := shared, failure := some e }
  /-- The rest cannot be stored: the issuer was allotted what is missing for a block. -/
  | paid {slot : SlotIndex} {cost missing : Mana} {issuer : AccountId} {index : Nat}
      {paid : Allotments} (hmissing : d.missingForBlock cost issuer = .ok missing) (hne : missing ≠ 0)
      (hpaid : d.allotments.increase issuer missing = .ok paid)
      (hstorable : { d with allotments := paid }.storable slot index = .error e) :
      d.Fails e (.payAndStoreRest slot cost issuer index)
        { d with allotments := paid, failure := some e }

/-- **Whatever fails, only allotments are changed.** -/
theorem Fails.eq {c : Call} {d' : Draft} (h : d.Fails e c d') :
    d' = { d with allotments := d'.allotments, failure := some e } := by
  cases h <;> rfl

/-- An operation that fails without a change leaves a draft that is unchanged. -/
theorem Fails.of_apply {c : Call} {operation : Draft → Outcome} (hd : d.failure = none)
    (h : (d.apply operation).failure = some e)
    (hrun : (operation d).failure = some e → (operation d).draft = d) :
    d.Fails e c (d.apply operation) := by
  obtain ⟨hfails, heq⟩ := apply_fails hd h
  rw [heq, hrun hfails]
  exact .unchanged c

/-- Allotting bound mana fails only if there is no balance left. -/
theorem fails_allotBound {slot : SlotIndex} {leftOut : List AccountId} (hd : d.failure = none)
    (h : (d.allotBound slot leftOut).failure = some e) :
    d.Fails e (.allotBound slot leftOut) (d.allotBound slot leftOut) := by
  unfold allotBound allotBoundReporting at h ⊢
  rw [hd] at h ⊢
  cases hleft : d.balanceLeft slot with
  | error e' =>
    rw [hleft] at h
    obtain rfl := Option.some.inj h
    exact .unchanged _
  | ok b =>
    rw [hleft] at h
    exact nomatch (allotShares_of_balanceLeft hleft leftOut).symm.trans h

/-- Allotting all mana fails before anything is allotted, or for want of room in the last account. -/
theorem fails_allotAll {slot : SlotIndex} {account : AccountId} {minimum : Mana}
    (hd : d.failure = none) (h : (d.allotAll slot account minimum).failure = some e) :
    d.Fails e (.allotAll slot account minimum) (d.allotAll slot account minimum) := by
  obtain ⟨hrun, heq⟩ := apply_fails hd h
  rw [allotAll, heq]
  obtain ⟨-, hdraft⟩ | ⟨⟨b, routed⟩, hroutable, hsteps, hdraft⟩ := proceed_fails hrun
  · rw [hdraft]
    exact .unchanged _
  · have hshares := allotShares_of_balanceLeft (routable_succeeds hroutable).1 [account]
    obtain ⟨hnone, -⟩ | ⟨-, hallot, hthen⟩ := andThen_fails hsteps
    · exact nomatch hshares.symm.trans hnone
    · obtain ⟨shared, hshared, hgains⟩ := allotShares_succeeds hshares
      obtain ⟨hkept, hover, hfailure⟩ := allot_fails hallot
      simp only [List.mem_singleton] at hgains
      have hmine : shared.manaOf account = d.allotments.manaOf account := by
        rw [← UInt64.toNat_inj, hgains.mana account, if_pos rfl, Nat.add_zero]
      rw [hshared] at hover hfailure
      rw [hdraft, hthen, hkept, hshared]
      exact .routed hroutable hgains (hmine ▸ hover) (hmine ▸ hfailure)

/-- Paying for a block fails before anything is allotted, or where the rest cannot be stored. -/
theorem fails_payAndStoreRest {slot : SlotIndex} {cost : Mana} {issuer : AccountId} {index : Nat}
    (hd : d.failure = none) (h : (d.payAndStoreRest slot cost issuer index).failure = some e) :
    d.Fails e (.payAndStoreRest slot cost issuer index)
      (d.payAndStoreRest slot cost issuer index) := by
  obtain ⟨hrun, heq⟩ := apply_fails hd h
  rw [payAndStoreRest, heq]
  obtain ⟨-, hdraft⟩ | ⟨missing, hmissing, hsteps, hdraft⟩ := proceed_fails hrun
  · rw [hdraft]
    exact .unchanged _
  · rw [hdraft]
    obtain ⟨hallot, hthen⟩ | ⟨hallot, hstore, hthen⟩ := andThen_fails hsteps
    · rw [hthen, (allot_fails hallot).1]
      exact .unchanged _
    · obtain ⟨hstorable, hkept⟩ := store_fails hstore
      rw [hthen, hkept]
      unfold allot at hallot hstorable ⊢
      split at hallot
      · next hzero =>
        rw [if_pos hzero]
        exact .unchanged _
      · next hne =>
        obtain ⟨paid, hpaid, -, hpay⟩ := proceed_succeeds hallot
        rw [if_neg hne, hpay] at hstorable ⊢
        exact .paid hmissing hne (mapError_eq_ok_iff.mp hpaid) hstorable

/-- **What a call that fails leaves of a draft without failure**: its allotments may be others, where a
policy had made some before the step that failed, and nothing else is but the failure. -/
theorem call_fails {c : Call} (hd : d.failure = none) (h : (d.call c).failure = some e) :
    d.call c = { d with allotments := (d.call c).allotments, failure := some e } ∧
      d.Fails e c (d.call c) := by
  have hfails : d.Fails e c (d.call c) := by
    cases c with
    | addInput | addOutput | addCommitment | addBlockIssuanceCredit | setPayload | setCapabilities
    | setCreationSlot => exact .of_apply hd h nofun
    | addReward index mana =>
      refine .of_apply hd h fun hrun => ?_
      obtain ⟨-, hdraft⟩ | ⟨_, _, hdone, _⟩ := proceed_fails hrun
      · exact hdraft
      · nomatch hdone
    | increaseAllotment account mana => exact .of_apply hd h fun hrun => (allot_fails hrun).1
    | allotBound slot leftOut => exact fails_allotBound hd h
    | allotAll slot account minimum => exact fails_allotAll hd h
    | storeRest slot index => exact .of_apply hd h fun hrun => (store_fails hrun).2
    | payAndStoreRest slot cost issuer index => exact fails_payAndStoreRest hd h
    | askMissing cost issuer =>
      have heq : d.call (.askMissing cost issuer) = d := congrArg Answered.draft (askMissing_eq d cost issuer)
      rw [heq] at h
      exact nomatch hd.symm.trans h
  exact ⟨hfails.eq, hfails⟩

end Draft

/-- Another account than the sample account. -/
def otherAccount : AccountId := ⟨.replicate 32 9⟩

/-- Mana of two accounts, and as many rewards as fit; one account is allotted its own. -/
def sampleRich : Draft :=
  (Draft.start .standard sampleSigner).run
    [.addInput ⟨⟨⟨.zero 32, 0⟩, 0⟩, .account 1000000 100 sampleAccount sampleOwner, sampleOwner⟩,
      .addInput ⟨⟨⟨.zero 32, 0⟩, 1⟩, .account 1000000 50 otherAccount sampleOwner, sampleOwner⟩,
      .addReward 0 18446744073709551615, .increaseAllotment sampleAccount 100]

/-- The other account was allotted its mana when the first had no room for the rest. -/
theorem call_fails_sample :
    sampleRich.failure = none ∧ sampleRich.allotments.manaOf otherAccount = 0 ∧
      ∃ failed, sampleRich.call (.allotAll 0 sampleAccount 0) = failed ∧
        failed = { sampleRich with
          allotments := failed.allotments
          failure := some (.arithmetic (.additionOverflow 100 18446744073709551615)) } ∧
        failed.allotments.manaOf otherAccount = 50 := by
  have hd : sampleRich.failure = none := by decide +kernel
  have hfails : (sampleRich.call (.allotAll 0 sampleAccount 0)).failure
      = some (.arithmetic (.additionOverflow 100 18446744073709551615)) := by decide +kernel
  obtain ⟨hframe, -⟩ := Draft.call_fails hd hfails
  exact ⟨hd, by decide +kernel, _, rfl, hframe, by decide +kernel⟩

/-- **An allotment that stays**: a draft without outputs has none to store the rest in, but its issuer is
allotted the cost of a block. -/
theorem failed_payment_stays_allotted :
    (Draft.start .standard sampleSigner).failure = none ∧
      ((Draft.start .standard sampleSigner).call (.payAndStoreRest 0 1 otherAccount 0)).failure
        = some (.outputIndexOutOfRange 0 0) ∧
      (Draft.start .standard sampleSigner).allotments.manaOf otherAccount = 0 ∧
      ((Draft.start .standard sampleSigner).call (.payAndStoreRest 0 1 otherAccount 0)).allotments.manaOf
        otherAccount = 1226 := by
  decide +kernel

end ManaWallet
