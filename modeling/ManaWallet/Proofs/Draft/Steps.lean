import ManaWallet.Draft.Policy
import ManaWallet.Proofs.Balance.Left

/-!
# Proofs/Draft/Steps — what the steps of a policy do to a draft

    draft ──allot, allotShares, store──▸ draft with other allotments and outputs

A step that succeeds leaves a draft with other allotments and outputs and nothing else changed.  Each
is described by what its allotments gain, account by account, and by the output it stores into.
-/

namespace ManaWallet

open Allotment

namespace Balance

/-! ## Shares -/

/-- The shares are the entries that hold mana, less those of the accounts left out. -/
theorem mem_shares {b : Balance} {leftOut : List AccountId} {a : Allotment} :
    a ∈ b.shares leftOut ↔
      b.bound[a.accountId]? = some a.mana ∧ a.accountId ∉ leftOut ∧ a.mana ≠ 0 := by
  obtain ⟨account, mana⟩ := a
  simp only [shares, List.mem_filterMap, Prod.exists, Std.ExtTreeMap.mem_toList_iff_getElem?_eq_some]
  constructor
  · rintro ⟨account', mana', hentry, hkept⟩
    split at hkept
    · nomatch hkept
    · next hnot =>
      obtain ⟨rfl, rfl⟩ := Allotment.mk.inj (Option.some.inj hkept)
      exact ⟨hentry, not_or.mp hnot⟩
  · rintro ⟨hentry, hnot⟩
    exact ⟨account, mana, hentry, if_neg (not_or.mpr hnot)⟩

/-- A share is made for the account of its entry. -/
theorem accountId_of_share {leftOut : List AccountId} {x : AccountId × Mana} {a : Allotment}
    (h : (if x.1 ∈ leftOut ∨ x.2 = 0 then none else some ⟨x.1, x.2⟩) = some a) : a.accountId = x.1 := by
  split at h
  · nomatch h
  · exact Option.some.inj h ▸ rfl

/-- The shares name the accounts in ascending order. -/
theorem ascending_shares (b : Balance) (leftOut : List AccountId) :
    (b.shares leftOut).Pairwise fun x y => compare x.accountId y.accountId = .lt := by
  refine b.bound.ordered_keys_toList.filterMap _ fun x y hlt a ha a' ha' => ?_
  rwa [accountId_of_share ha, accountId_of_share ha']

/-- The shares name every account once. -/
theorem nodup_shares (b : Balance) (leftOut : List AccountId) :
    ((b.shares leftOut).map Allotment.accountId).Nodup := by
  rw [List.Nodup, List.pairwise_map]
  refine (b.ascending_shares leftOut).imp fun hlt heq => ?_
  exact nomatch hlt.symm.trans (Std.compare_eq_iff_eq.mpr heq)

/-- Nothing is bound to an account without a share, unless it is left out. -/
theorem boundTo_eq_zero {b : Balance} {leftOut : List AccountId} {x : AccountId}
    (hshare : x ∉ (b.shares leftOut).map Allotment.accountId) (hkept : x ∉ leftOut) :
    b.boundTo x = 0 := by
  rw [boundTo_eq]
  cases hentry : b.bound[x]? with
  | none => rfl
  | some mana =>
    by_contra hne
    exact hshare (List.mem_map.mpr ⟨⟨x, mana⟩, mem_shares.mpr ⟨hentry, hkept, hne⟩, rfl⟩)

/-- **The shares hand every account what is bound to it**, except the accounts left out. -/
theorem gain_shares (b : Balance) (leftOut : List AccountId) (x : AccountId) :
    gain (b.shares leftOut) x = if x ∈ leftOut then 0 else (b.boundTo x).toNat := by
  by_cases hshare : x ∈ (b.shares leftOut).map Allotment.accountId
  · obtain ⟨a, ha, rfl⟩ := List.mem_map.mp hshare
    obtain ⟨hentry, hkept, -⟩ := mem_shares.mp ha
    rw [if_neg hkept, boundTo_eq, hentry]
    exact Allotments.gain_of_mem (b.nodup_shares leftOut) ha
  · rw [Allotments.gain_eq_zero hshare]
    split
    · rfl
    · next hkept =>
      rw [boundTo_eq_zero hshare hkept]
      rfl

/-- Mana routed to an account that is left out: it takes its own share and the unbound mana. -/
theorem share_add_routed {b : Balance} {account : AccountId} {routed : Mana}
    (h : routed.toNat = b.unbound.toNat + (b.boundTo account).toNat) (x : AccountId) :
    ((if x ∈ [account] then 0 else (b.boundTo x).toNat) + if account = x then routed.toNat else 0)
      = (b.boundTo x).toNat + if account = x then b.unbound.toNat else 0 := by
  have hmine : x ∈ [account] ↔ account = x := List.mem_singleton.trans eq_comm
  rw [if_congr hmine rfl rfl, h]
  split
  · next heq =>
    subst heq
    omega
  · rfl

end Balance

/-- The account that an output belongs to, unless the output only opens it. -/
def Output.ownAccount? (o : Output) : Option AccountId :=
  o.accountId?.filter fun account => !account.isEmpty

namespace Draft

variable {d : Draft}

/-! ## Outcomes -/

/-- A draft without failure comes from an operation without failure on one without failure. -/
theorem apply_succeeds {operation : Draft → Outcome} (h : (d.apply operation).failure = none) :
    d.failure = none ∧ (operation d).failure = none
      ∧ d.apply operation = { (operation d).draft with failure := none } := by
  unfold apply at h ⊢
  cases hd : d.failure with
  | some e =>
    rw [hd] at h
    nomatch hd.symm.trans h
  | none =>
    rw [hd] at h
    dsimp only at h ⊢
    exact ⟨rfl, h, by rw [h]⟩

theorem proceed_succeeds {α : Type} {result : Except DraftError α} {next : α → Outcome}
    (h : (d.proceed result next).failure = none) :
    ∃ value, result = .ok value ∧ (next value).failure = none
      ∧ (d.proceed result next).draft = (next value).draft := by
  cases result with
  | error e => nomatch h
  | ok value => exact ⟨value, rfl, h, rfl⟩

theorem andThen_succeeds {o : Outcome} {next : Draft → Outcome}
    (h : (o.andThen next).failure = none) :
    o.failure = none ∧ (next o.draft).failure = none
      ∧ (o.andThen next).draft = (next o.draft).draft := by
  unfold Outcome.andThen at h ⊢
  cases ho : o.failure with
  | some e =>
    rw [ho] at h
    nomatch ho.symm.trans h
  | none =>
    rw [ho] at h
    exact ⟨rfl, h, rfl⟩

/-! ## Steps -/

/-- Allotting gives one account the mana. -/
theorem allot_succeeds {account : AccountId} {mana : Mana} (h : (d.allot account mana).failure = none) :
    ∃ allotments, (d.allot account mana).draft = { d with allotments } ∧
      d.allotments.Gains allotments fun x => if account = x then mana.toNat else 0 := by
  unfold allot at h ⊢
  split at h
  · next hzero =>
    have hnone : (fun x => if account = x then mana.toNat else 0) = fun _ => 0 := by simp [hzero]
    exact ⟨d.allotments, if_pos hzero ▸ rfl, hnone ▸ Allotments.Gains.refl _⟩
  · next hne =>
    obtain ⟨allotments, hincrease, -, heq⟩ := proceed_succeeds h
    rw [mapError_eq_ok_iff] at hincrease
    exact ⟨allotments, by rw [if_neg hne, heq, done], Allotments.gains_increase hne hincrease⟩

/-- **Allotting shares** gives every account what is bound to it, except the accounts left out. -/
theorem allotShares_succeeds {b : Balance} {leftOut : List AccountId}
    (h : (d.allotShares b leftOut).1.failure = none) :
    ∃ allotments, (d.allotShares b leftOut).1.draft = { d with allotments } ∧
      d.allotments.Gains allotments fun x => if x ∈ leftOut then 0 else (b.boundTo x).toNat := by
  have hgains := Allotments.gains_increaseAll (fun _ hmem => (Balance.mem_shares.mp hmem).2.2)
    (Option.map_eq_none_iff.mp h)
  exact ⟨_, rfl, funext (b.gain_shares leftOut) ▸ hgains⟩

/-- What can be routed is the unbound mana and what is bound to the account. -/
theorem routable_succeeds {slot : SlotIndex} {account : AccountId} {minimum routed : Mana}
    {b : Balance} (h : d.routable slot account minimum = .ok (b, routed)) :
    d.balanceLeft slot = .ok b ∧ routed.toNat = b.unbound.toNat + (b.boundTo account).toNat := by
  simp only [routable, bind_eq_ok_iff, mapError_eq_ok_iff] at h
  obtain ⟨left, hleft, sum, hsum, h⟩ := h
  split at h
  · nomatch h
  · obtain ⟨rfl, rfl⟩ := Prod.mk.inj (pure_eq_ok_iff.mp h)
    exact ⟨hleft, checkedAdd_eq_ok_iff.mp hsum⟩

/-- What can be stored is the mana left and what is bound to the account of the output. -/
theorem storable_succeeds {slot : SlotIndex} {index : Nat} {b : Balance} {output : Output}
    {own : Option AccountId} (h : d.storable slot index = .ok (b, output, own)) :
    ∃ found held mana, d.outputs[index]? = some found ∧ found.body.mana? = some held ∧
      d.balanceLeft slot = .ok b ∧ own = found.ownAccount? ∧ output = found.withStoredMana mana ∧
      mana.toNat = held.toNat + (b.unbound.toNat + (own.elim 0 b.boundTo).toNat) := by
  simp only [storable] at h
  cases hfound : d.outputs[index]? with
  | none => simp [hfound, throw, throwThe, MonadExceptOf.throw] at h
  | some found =>
    simp only [hfound, bind_eq_ok_iff, mapError_eq_ok_iff] at h
    obtain ⟨left, hleft, rest, hrest, h⟩ := h
    cases hheld : found.body.mana? with
    | none => simp [hheld, throw, throwThe, MonadExceptOf.throw] at h
    | some held =>
      simp only [hheld, bind_eq_ok_iff, mapError_eq_ok_iff] at h
      obtain ⟨mana, hmana, h⟩ := h
      obtain ⟨rfl, rfl, rfl⟩ := by simpa using pure_eq_ok_iff.mp h
      refine ⟨found, held, mana, rfl, hheld, hleft, rfl, rfl, ?_⟩
      rw [checkedAdd_eq_ok_iff.mp hmana, checkedAdd_eq_ok_iff.mp hrest]

/-- **Storing** puts the mana left into an output and gives every other account what is bound to it. -/
theorem store_succeeds {slot : SlotIndex} {index : Nat} (h : (d.store slot index).failure = none) :
    ∃ b found held mana allotments, d.balanceLeft slot = .ok b ∧
      d.outputs[index]? = some found ∧ found.body.mana? = some held ∧
      mana.toNat = held.toNat + (b.unbound.toNat + (found.ownAccount?.elim 0 b.boundTo).toNat) ∧
      (d.store slot index).draft
        = { d with outputs := d.outputs.set index (found.withStoredMana mana), allotments } ∧
      d.allotments.Gains allotments fun x =>
        if x ∈ found.ownAccount?.toList then 0 else (b.boundTo x).toNat := by
  obtain ⟨⟨b, output, own⟩, hstorable, hshares, heq⟩ := proceed_succeeds h
  obtain ⟨found, held, mana, hfound, hheld, hleft, rfl, rfl, hmana⟩ := storable_succeeds hstorable
  obtain ⟨allotments, hdraft, hgains⟩ := allotShares_succeeds hshares
  exact ⟨b, found, held, mana, allotments, hleft, hfound, hheld, hmana,
    heq.trans hdraft, hgains⟩

/-! ## Policies -/

/-- Allotting bound mana gives every account what is bound to it, except the accounts left out. -/
theorem allotBound_succeeds {slot : SlotIndex} {leftOut : List AccountId}
    (h : (d.allotBound slot leftOut).failure = none) :
    d.failure = none ∧ ∃ b allotments, d.balanceLeft slot = .ok b ∧
      d.allotBound slot leftOut = { d with allotments, failure := none } ∧
      d.allotments.Gains allotments fun x => if x ∈ leftOut then 0 else (b.boundTo x).toNat := by
  unfold allotBound allotBoundReporting at h ⊢
  cases hfailure : d.failure with
  | some e =>
    rw [hfailure] at h
    exact nomatch hfailure.symm.trans h
  | none =>
    cases hleft : d.balanceLeft slot with
    | error e =>
      rw [hfailure, hleft] at h
      nomatch h
    | ok b =>
      rw [hfailure, hleft] at h
      obtain ⟨allotments, hdraft, hgains⟩ := allotShares_succeeds h
      exact ⟨rfl, b, allotments, rfl, congrArg₂ (fun d failure => { d with failure }) hdraft h, hgains⟩

/-- Allotting all mana gives every account what is bound to it, and one account the unbound mana. -/
theorem allotAll_succeeds {slot : SlotIndex} {account : AccountId} {minimum : Mana}
    (h : (d.allotAll slot account minimum).failure = none) :
    ∃ b allotments, d.balanceLeft slot = .ok b ∧
      d.allotAll slot account minimum = { d with allotments, failure := none } ∧
      d.allotments.Gains allotments fun x =>
        (b.boundTo x).toNat + if account = x then b.unbound.toNat else 0 := by
  obtain ⟨-, hrun, hdraft⟩ := apply_succeeds h
  obtain ⟨⟨b, routed⟩, hroutable, hsteps, hproceed⟩ := proceed_succeeds hrun
  obtain ⟨hshares, hallot, hthen⟩ := andThen_succeeds hsteps
  obtain ⟨hleft, hrouted⟩ := routable_succeeds hroutable
  obtain ⟨shared, hshared, hshare⟩ := allotShares_succeeds hshares
  obtain ⟨allotments, hallotments, hgains⟩ := allot_succeeds hallot
  rw [hshared] at hthen hallotments hgains
  refine ⟨b, allotments, hleft, ?_, funext (Balance.share_add_routed hrouted) ▸ hshare.trans hgains⟩
  exact hdraft.trans
    (congrArg ({ · with failure := none }) (hproceed.trans (hthen.trans hallotments)))

/-- Storing the rest is its one step. -/
theorem storeRest_succeeds {slot : SlotIndex} {index : Nat}
    (h : (d.storeRest slot index).failure = none) :
    (d.store slot index).failure = none
      ∧ d.storeRest slot index = { (d.store slot index).draft with failure := none } :=
  (apply_succeeds h).2

/-- Paying for a block first allots the issuer what is missing for it, and then stores the rest. -/
theorem payAndStoreRest_succeeds {slot : SlotIndex} {referenceManaCost : Mana} {issuer : AccountId}
    {index : Nat} (h : (d.payAndStoreRest slot referenceManaCost issuer index).failure = none) :
    ∃ missing allotments, d.missingForBlock referenceManaCost issuer = .ok missing ∧
      (d.allotments.Gains allotments fun x => if issuer = x then missing.toNat else 0) ∧
      ({ d with allotments }.store slot index).failure = none ∧
      d.payAndStoreRest slot referenceManaCost issuer index
        = { ({ d with allotments }.store slot index).draft with failure := none } := by
  obtain ⟨-, hrun, hdraft⟩ := apply_succeeds h
  obtain ⟨missing, hmissing, hsteps, hproceed⟩ := proceed_succeeds hrun
  obtain ⟨hallot, hstore, hthen⟩ := andThen_succeeds hsteps
  obtain ⟨allotments, hallotments, hgains⟩ := allot_succeeds hallot
  rw [hallotments] at hstore hthen
  exact ⟨missing, allotments, hmissing, hgains, hstore,
    hdraft.trans (congrArg ({ · with failure := none }) (hproceed.trans hthen))⟩

/-- **Paying for a block and storing the rest** change allotments and outputs only. -/
theorem payAndStoreRest_frame {slot : SlotIndex} {referenceManaCost : Mana} {issuer : AccountId}
    {index : Nat} (h : (d.payAndStoreRest slot referenceManaCost issuer index).failure = none) :
    ∃ allotments outputs, d.payAndStoreRest slot referenceManaCost issuer index
      = { d with allotments, outputs, failure := none } := by
  obtain ⟨_, _, -, -, hstore, heq⟩ := payAndStoreRest_succeeds h
  obtain ⟨_, _, _, _, allotments, -, -, -, -, hdraft, -⟩ := store_succeeds hstore
  exact ⟨allotments, _, heq.trans (congrArg ({ · with failure := none }) hdraft)⟩

end Draft

end ManaWallet
