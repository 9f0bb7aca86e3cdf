import ManaWallet.Proofs.Draft.Failing

/-!
# Proofs/Draft/Shares — allotting bound mana moves nothing else

    bound to an account   B = claimed + share
    the share allotted    B = claimed'           unbound mana as before, nothing left to allot

An account's share is what its claims leave of the mana bound to it.  Allotted to the account, it is claimed
of the same mana: the account then claims all that is bound to it and no more, so none of the unbound mana
is drawn (`Protocol.exists_balanceAfter_of_shares`).  The shares of the balance left then are none, and
allotting them once more changes nothing.
-/

namespace ManaWallet

/-! ## Shares -/

namespace Balance

variable {b b' : Balance} {leftOut : List AccountId}

/-- A share is all that is bound to its account, which holds some and is not left out. -/
theorem mem_shares_iff {account : AccountId} {mana : Mana} :
    ⟨account, mana⟩ ∈ b.shares leftOut ↔ account ∉ leftOut ∧ mana = b.boundTo account ∧ mana ≠ 0 := by
  rw [mem_shares, boundTo_eq]
  cases b.bound[account]? with
  | none => simp
  | some held => simp [eq_comm, and_left_comm]

/-- Where nothing is bound to the accounts that are not left out, there are no shares. -/
theorem shares_eq_nil (h : ∀ x ∉ leftOut, b.boundTo x = 0) : b.shares leftOut = [] := by
  refine List.eq_nil_iff_forall_not_mem.mpr fun share hshare => ?_
  obtain ⟨hkept, hmana, hne⟩ := mem_shares_iff.mp hshare
  exact hne (hmana.trans (h _ hkept))

end Balance

namespace Allotments

variable {a a' : Allotments} {more : AccountId → ℕ}

/-- Steps that all succeed are all reported. -/
theorem made_increaseAll {steps : List Allotment} (h : (a.increaseAll steps).failure = none) :
    (a.increaseAll steps).made = steps := by
  induction steps generalizing a with
  | nil => rfl
  | cons step rest ih =>
    rw [increaseAll] at h ⊢
    cases hstep : a.increase step.accountId step.mana with
    | error e =>
      rw [hstep] at h
      exact absurd h (Option.some_ne_none _)
    | ok increased =>
      rw [hstep] at h
      exact congrArg (step :: ·) (ih h)

/-- The entry of an account that gains nothing stays, and none is added for it. -/
theorem Gains.mem_entries_iff (h : a.Gains a' more) {x : Allotment} (hx : more x.accountId = 0) :
    x ∈ a'.entries ↔ x ∈ a.entries := by
  have hmana : a'.manaOf x.accountId = a.manaOf x.accountId := by
    rw [← UInt64.toNat_inj, h.mana, hx, Nat.add_zero]
  rw [Allotments.mem_entries_iff, Allotments.mem_entries_iff, h.accounts, hmana]
  simp [hx]

end Allotments

/-! ## The balance left -/

namespace Protocol

variable {p : Protocol} {t t' : Transaction} {b₀ b : Balance} {more : AccountId → ℕ}

/-- Accounts that gain allotments claim as much more. -/
theorem claimedOf_of_gains (hslot : t'.creationSlot = t.creationSlot) (houtputs : t'.outputs = t.outputs)
    (hgains : t.allotments.Gains t'.allotments more) (x : AccountId) :
    p.claimedOf t' x = p.claimedOf t x + more x := by
  have hstored : p.storedFor t' (some x) = p.storedFor t (some x) := by
    rw [storedFor, storedFor, hslot, houtputs]
  rw [claimedOf_eq, claimedOf_eq, hstored, hgains.mana, Nat.add_assoc]

/-- **Claims out of what is left bound draw no unbound mana.** -/
theorem needed_of_shares (hleft : p.Settles t b₀ b) (hslot : t'.creationSlot = t.creationSlot)
    (houtputs : t'.outputs = t.outputs) (hgains : t.allotments.Gains t'.allotments more)
    (hmore : ∀ x, more x ≤ (b.boundTo x).toNat) : p.needed t' b₀ = p.needed t b₀ := by
  have hfree : p.storedFor t' none = p.storedFor t none := by
    rw [storedFor, storedFor, hslot, houtputs]
  have hterm : ∀ x, p.claimedOf t' x - (b₀.boundTo x).toNat = p.claimedOf t x - (b₀.boundTo x).toNat := by
    intro x
    have hclaimed := claimedOf_of_gains (p := p) hslot houtputs hgains x
    have hbound := hleft.boundTo x
    have hshare := hmore x
    omega
  simp only [needed, hfree, hterm]

/-- **Allotting accounts mana that is left bound to them** leaves a balance that is less by that mana and
otherwise the same. -/
theorem exists_balanceAfter_of_shares {slot : SlotIndex} {inputs : List Consumed} {rewards : Mana}
    (hleft : p.balanceAfter slot inputs rewards t = .ok b) (hslot : t'.creationSlot = t.creationSlot)
    (houtputs : t'.outputs = t.outputs) (hgains : t.allotments.Gains t'.allotments more)
    (hmore : ∀ x, more x ≤ (b.boundTo x).toNat) :
    ∃ b', p.balanceAfter slot inputs rewards t' = .ok b' ∧ b' = { b with bound := b'.bound } ∧
      ∀ x, (b'.boundTo x).toNat = (b.boundTo x).toNat - more x := by
  obtain ⟨b₀, hinputs, -⟩ := balanceAfter_eq_ok_iff.mp hleft
  have hsettles := settles_balanceAfter hinputs hleft
  have hneeded := needed_of_shares hsettles hslot houtputs hgains hmore
  have hunbound := hsettles.unbound
  obtain ⟨b', hleft'⟩ := (exists_balanceAfter_iff (t := t')).mpr ⟨b₀, hinputs, by omega⟩
  have hsettles' := settles_balanceAfter hinputs hleft'
  refine ⟨b', hleft', ?_, ?_⟩
  · have hunbound' := hsettles'.unbound
    have hsame : b'.unbound = b.unbound := UInt64.toNat_inj.mp (by omega)
    obtain ⟨_, _, _, _, _, _, _, _⟩ := b
    obtain ⟨_, _, _, _, _, _, _, _⟩ := b'
    simp only [Balance.mk.injEq, and_true]
    exact ⟨hsettles'.total.trans hsettles.total.symm, hsame,
      hsettles'.potential.trans hsettles.potential.symm, hsettles'.stored.trans hsettles.stored.symm,
      hsettles'.unboundPotential.trans hsettles.unboundPotential.symm,
      hsettles'.unboundStored.trans hsettles.unboundStored.symm,
      hsettles'.rewards.trans hsettles.rewards.symm⟩
  · intro x
    rw [hsettles'.boundTo, hsettles.boundTo, claimedOf_of_gains hslot houtputs hgains, Nat.sub_sub]

end Protocol

/-! ## The policy -/

namespace Draft

variable {d : Draft} {slot : SlotIndex} {b : Balance}

/-- Allotting bound mana adds the shares of the balance left, and reports them. -/
theorem allotBoundReporting_eq (hd : d.failure = none) (h : d.balanceLeft slot = .ok b)
    (leftOut : List AccountId) :
    d.allotBoundReporting slot leftOut
      = ({ d with allotments := (d.allotments.increaseAll (b.shares leftOut)).allotments },
        b.shares leftOut) := by
  have hnone := increaseAll_shares_succeeds h leftOut
  have hmade := Allotments.made_increaseAll hnone
  unfold allotBoundReporting allotShares
  rw [hd, h]
  dsimp only
  rw [hnone, hmade]
  rfl

/-- Allotting accounts mana that is left bound to them takes that mana off the balance left. -/
theorem exists_balanceLeft_of_shares {allotments : Allotments} {more : AccountId → ℕ}
    (h : d.balanceLeft slot = .ok b) (hgains : d.allotments.Gains allotments more)
    (hmore : ∀ x, more x ≤ (b.boundTo x).toNat) :
    ∃ b', { d with allotments }.balanceLeft slot = .ok b' ∧ b' = { b with bound := b'.bound } ∧
      ∀ x, (b'.boundTo x).toNat = (b.boundTo x).toNat - more x := by
  have hslot : { d with allotments }.transaction.creationSlot = d.transaction.creationSlot := rfl
  have houtputs : { d with allotments }.transaction.outputs = d.transaction.outputs := rfl
  obtain ⟨b', hleft, hrest⟩ := Protocol.exists_balanceAfter_of_shares (mapError_eq_ok_iff.mp h) hslot
    houtputs hgains hmore
  exact ⟨b', mapError_eq_ok_iff.mpr hleft, hrest⟩

/-- What allotting bound mana leaves of a draft whose balance left is `b`, and what it reports. -/
structure HandsOut (d : Draft) (slot : SlotIndex) (leftOut : List AccountId) (b : Balance)
    (d' : Draft) (made : List Allotment) : Prop where
  unfailed : d'.failure = none
  /-- Outputs and all the rest stay. -/
  frame : d' = { d with allotments := d'.allotments }
  /-- Every account that is not left out gains what is bound to it. -/
  mana : ∀ x, (d'.allotments.manaOf x).toNat
    = (d.allotments.manaOf x).toNat + if x ∈ leftOut then 0 else (b.boundTo x).toNat
  /-- Accounts that gain nothing keep their entries, and get none. -/
  kept : ∀ x : Allotment, x.accountId ∈ leftOut ∨ b.boundTo x.accountId = 0 →
    (x ∈ d'.allotments.entries ↔ x ∈ d.allotments.entries)
  /-- The allotments are reported in ascending order of accounts, … -/
  ascending : made.Pairwise fun x y => compare x.accountId y.accountId = .lt
  /-- … one for each account that gains, with what it gains. -/
  reported : ∀ x mana, ⟨x, mana⟩ ∈ made ↔ x ∉ leftOut ∧ mana = b.boundTo x ∧ mana ≠ 0
  /-- The balance left then: mana stays bound to the accounts left out only, all else is as before. -/
  left : ∃ b', d'.balanceLeft slot = .ok b' ∧ b' = { b with bound := b'.bound } ∧
    ∀ x, b'.boundTo x = if x ∈ leftOut then b.boundTo x else 0
  /-- Once more, it changes and reports nothing. -/
  again : d'.allotBoundReporting slot leftOut = (d', [])

/-- **Allotting bound mana allots the bound mana and nothing else.**  It cannot fail where there is a
balance left. -/
theorem allotBound_handsOut (hd : d.failure = none) (h : d.balanceLeft slot = .ok b)
    (leftOut : List AccountId) :
    d.HandsOut slot leftOut b (d.allotBound slot leftOut) (d.allotBoundReporting slot leftOut).2 := by
  have hreport := allotBoundReporting_eq hd h leftOut
  have hgains := Allotments.gains_increaseAll (fun _ hmem => (Balance.mem_shares.mp hmem).2.2)
    (increaseAll_shares_succeeds h leftOut)
  rw [funext (b.gain_shares leftOut)] at hgains
  rw [allotBound, hreport]
  set allotments := (d.allotments.increaseAll (b.shares leftOut)).allotments
  have hmore : ∀ x, (if x ∈ leftOut then 0 else (b.boundTo x).toNat) ≤ (b.boundTo x).toNat := by
    intro x
    split <;> omega
  obtain ⟨b', hleft, hframe, hbound⟩ := exists_balanceLeft_of_shares h hgains hmore
  have hbound' : ∀ x, b'.boundTo x = if x ∈ leftOut then b.boundTo x else 0 := by
    intro x
    rw [← UInt64.toNat_inj, hbound]
    by_cases hx : x ∈ leftOut
    · rw [if_pos hx, if_pos hx, Nat.sub_zero]
    · rw [if_neg hx, if_neg hx, Nat.sub_self, UInt64.toNat_zero]
  refine ⟨hd, rfl, hgains.mana, ?_, b.ascending_shares leftOut, fun _ _ => Balance.mem_shares_iff,
    ⟨b', hleft, hframe, hbound'⟩, ?_⟩
  · intro x hx
    refine hgains.mem_entries_iff ?_
    obtain hleftOut | hzero := hx
    · exact if_pos hleftOut
    · rw [hzero, UInt64.toNat_zero, ite_self]
  · have hnil : b'.shares leftOut = [] :=
      Balance.shares_eq_nil fun x hx => (hbound' x).trans (if_neg hx)
    rw [allotBoundReporting_eq (d := { d with allotments }) hd hleft, hnil]
    rfl

end Draft

/-- One account was allotted all that is bound to it before, the other gets its share now. -/
theorem allotBound_handsOut_sample :
    sampleRich.failure = none ∧ ∃ b, sampleRich.balanceLeft 0 = .ok b ∧
      sampleRich.HandsOut 0 [] b (sampleRich.allotBound 0 []) [⟨otherAccount, 50⟩] := by
  have hd : sampleRich.failure = none := by decide +kernel
  have hunbound : (sampleRich.balanceLeft 0).map Balance.unbound = .ok 18446744073709551615 := by
    decide +kernel
  have hreport : (sampleRich.allotBoundReporting 0 []).2 = [⟨otherAccount, 50⟩] := by decide +kernel
  obtain ⟨b, hleft, -⟩ := map_eq_ok_iff.mp hunbound
  exact ⟨hd, b, hleft, hreport ▸ Draft.allotBound_handsOut hd hleft []⟩

end ManaWallet
