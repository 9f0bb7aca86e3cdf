import ManaWallet.Proofs.Draft.Steps

/-!
# Proofs/Draft/Draining — balancing policies leave no mana behind

    unbound mana of the balance left ──▸ one target
    mana bound to an account ──────────▸ that account

A policy computes what is left once and hands it out; the balance is then settled anew, by other ways:
mana stored in an output may be bound to an account, and what an account lacks is drawn from the unbound
mana.  Whatever the target is, the two agree to the last unit (`Exhausts.balanceAfter`).
-/

namespace ManaWallet

/-! ## Storing mana in an output -/

namespace Output

theorem accountId?_withStoredMana (o : Output) (mana : Mana) :
    (o.withStoredMana mana).accountId? = o.accountId? := by
  obtain ⟨_, body, _⟩ := o
  cases body <;> rfl

theorem storedMana_withStoredMana {o : Output} {held : Mana} (hheld : o.body.mana? = some held)
    (mana : Mana) : (o.withStoredMana mana).storedMana = mana := by
  obtain ⟨_, body, _⟩ := o
  cases body with
  | basic | account | anchor | nft => rfl
  | foundry | delegation => nomatch hheld

end Output

namespace Protocol

variable {p : Protocol} {t t' : Transaction} {b₀ b : Balance} {target : Option AccountId}

/-- The account that an output's mana stays bound to does not depend on how much it is. -/
theorem boundAccount?_withStoredMana (p : Protocol) (slot : SlotIndex) (o : Output) (mana : Mana) :
    p.boundAccount? slot (o.withStoredMana mana) = p.boundAccount? slot o := by
  unfold boundAccount?
  rw [Output.accountId?_withStoredMana]
  rfl

/-- Mana added to one output is stored for the account that the output's mana stays bound to. -/
theorem storedFor_set {index : Nat} {o : Output} {held mana : Mana} {more : ℕ}
    (hslot : t'.creationSlot = t.creationSlot) (ho : t.outputs[index]? = some o)
    (hheld : o.body.mana? = some held) (hmana : mana.toNat = held.toNat + more)
    (houtputs : t'.outputs = t.outputs.set index (o.withStoredMana mana)) (source : Option AccountId) :
    p.storedFor t' source
      = p.storedFor t source + if p.boundAccount? t.creationSlot o = source then more else 0 := by
  obtain ⟨hlt, hget⟩ := List.getElem?_eq_some_iff.mp ho
  obtain ⟨before, after, hsplit, -, hset⟩ :=
    @List.exists_of_set _ index (o.withStoredMana mana) t.outputs hlt
  have hstored : o.storedMana = held := congrArg (Option.getD · 0) hheld
  have hbound := p.boundAccount?_withStoredMana t.creationSlot o mana
  rw [storedFor, storedFor, hslot, houtputs, hset, hsplit, hget]
  by_cases heq : p.boundAccount? t.creationSlot o = source
  · simp [hbound, heq, Output.storedMana_withStoredMana hheld, hstored, hmana]
    omega
  · simp [hbound, heq]

/-! ## Exhausting a balance -/

/-- A transaction that claims, beyond what another does, all that the other leaves: of every account
what is bound to it, and the unbound mana for one target. -/
structure Exhausts (p : Protocol) (t t' : Transaction) (b : Balance) (target : Option AccountId) :
    Prop where
  free : p.storedFor t' none = p.storedFor t none + if target = none then b.unbound.toNat else 0
  claimed : ∀ a, p.claimedOf t' a = p.claimedOf t a + (b.boundTo a).toNat
    + if target = some a then b.unbound.toNat else 0

end Protocol

/-- A balance of which nothing is left. -/
structure Balance.Drained (b : Balance) : Prop where
  unbound : b.unbound = 0
  bound : ∀ a, b.boundTo a = 0

/-- Nothing is left of a balance exactly if it is worth nothing. -/
theorem Balance.drained_iff_worth {b : Balance} : b.Drained ↔ b.worth = 0 := by
  have hzero : ∀ m : Mana, m.toNat = 0 ↔ m = 0 := fun m => UInt64.toNat_inj (b := 0)
  rw [worth, Nat.add_eq_zero_iff, Finset.sum_eq_zero_iff, hzero]
  exact ⟨fun h => ⟨h.unbound, fun a _ => by rw [h.bound a]; rfl⟩,
    fun h => ⟨h.1, fun a => (hzero _).mp (h.2 a (Finset.mem_univ a))⟩⟩

namespace Protocol

variable {p : Protocol} {t t' : Transaction} {b₀ b : Balance} {target : Option AccountId}

/-- Whatever the target of the unbound mana, all of it is needed: claims of an account are met first by
what is bound to it, and the account already claims what the balance left does not hold. -/
theorem Exhausts.needed (h : p.Exhausts t t' b target) (hleft : p.Settles t b₀ b) :
    p.needed t' b₀ = b₀.unbound.toNat := by
  have hterm : ∀ a, p.claimedOf t' a - (b₀.boundTo a).toNat
      = (p.claimedOf t a - (b₀.boundTo a).toNat)
        + if target = some a then b.unbound.toNat else 0 := by
    intro a
    have hclaimed := h.claimed a
    have hbound := hleft.boundTo a
    omega
  have htarget : (if target = none then b.unbound.toNat else 0)
      + ∑ a, (if target = some a then b.unbound.toNat else 0) = b.unbound.toNat := by
    cases target with
    | none => simp
    | some account => simp [Finset.sum_ite_eq]
  have hunbound := hleft.unbound
  rw [Protocol.needed] at hunbound ⊢
  simp only [hterm, Finset.sum_add_distrib, h.free]
  omega

/-- The account that an output belongs to is the one its mana stays bound to. -/
theorem boundAccount?_of_ownAccount? {created : SlotIndex} {o : Output} {account : AccountId}
    (h : o.ownAccount? = some account) : p.boundAccount? created o = some account := by
  have haccount : o.accountId? = some account := (Option.filter_eq_some_iff.mp h).1
  rw [boundAccount?, haccount]

/-- Allotments exhaust a balance, if every account is allotted its share and one the unbound mana. -/
theorem Exhausts.of_allot {account : AccountId} (hslot : t'.creationSlot = t.creationSlot)
    (houtputs : t'.outputs = t.outputs)
    (hgains : t.allotments.Gains t'.allotments fun x =>
      (b.boundTo x).toNat + if account = x then b.unbound.toNat else 0) :
    p.Exhausts t t' b (some account) := by
  have hstored : ∀ source, p.storedFor t' source = p.storedFor t source := by
    intro source
    rw [storedFor, storedFor, hslot, houtputs]
  refine ⟨hstored none, ?_⟩
  intro a
  rw [claimedOf_eq, claimedOf_eq, hstored (some a), hgains.mana a]
  simp only [Option.some.injEq]
  omega

/-- What is bound to the output's own account is in its mana, and what is bound to others in their
shares. -/
theorem stored_add_share {o : Output} (b : Balance)
    (hown : ∀ account, o.ownAccount? = some account → target = some account) (a : AccountId) :
    ((if target = some a then b.unbound.toNat + (o.ownAccount?.elim 0 b.boundTo).toNat else 0)
        + if a ∈ o.ownAccount?.toList then 0 else (b.boundTo a).toNat)
      = (b.boundTo a).toNat + if target = some a then b.unbound.toNat else 0 := by
  cases heq : o.ownAccount? with
  | none =>
    simp
    omega
  | some account =>
    rw [hown account heq]
    by_cases ha : account = a
    · subst ha
      simp
      omega
    · simp [ha, Ne.symm ha]

/-- Mana added to an output exhausts a balance, if it is the unbound mana with that of the output's own
account, and every other account is allotted its share.  The target is whoever the output's mana stays
bound to. -/
theorem Exhausts.of_store {index : Nat} {o : Output} {held mana : Mana}
    (hslot : t'.creationSlot = t.creationSlot) (ho : t.outputs[index]? = some o)
    (hheld : o.body.mana? = some held)
    (hmana : mana.toNat
      = held.toNat + (b.unbound.toNat + (o.ownAccount?.elim 0 b.boundTo).toNat))
    (houtputs : t'.outputs = t.outputs.set index (o.withStoredMana mana))
    (hgains : t.allotments.Gains t'.allotments fun x =>
      if x ∈ o.ownAccount?.toList then 0 else (b.boundTo x).toNat) :
    p.Exhausts t t' b (p.boundAccount? t.creationSlot o) := by
  have hstored := storedFor_set (p := p) hslot ho hheld hmana houtputs
  have hown : ∀ account, o.ownAccount? = some account →
      p.boundAccount? t.creationSlot o = some account :=
    fun _ => boundAccount?_of_ownAccount?
  constructor
  · -- an output whose mana stays free belongs to no account
    rw [hstored none]
    split
    · next hnone =>
      have hfree : o.ownAccount? = none :=
        Option.eq_none_iff_forall_ne_some.mpr fun account h => nomatch hnone.symm.trans (hown account h)
      rw [hfree]
      rfl
    · rfl
  · intro a
    have hshare := stored_add_share b hown a
    rw [claimedOf_eq, claimedOf_eq, hstored (some a), hgains.mana a]
    omega

/-- **A transaction that exhausts the balance left can be settled, and nothing is left.** -/
theorem Exhausts.balanceAfter {slot : SlotIndex} {inputs : List Consumed} {rewards : Mana}
    (h : p.Exhausts t t' b target) (hleft : p.balanceAfter slot inputs rewards t = .ok b) :
    ∃ b', p.balanceAfter slot inputs rewards t' = .ok b' ∧ b'.Drained := by
  obtain ⟨b₀, hinputs, -⟩ := balanceAfter_eq_ok_iff.mp hleft
  have hsettles := settles_balanceAfter hinputs hleft
  have hneeded := h.needed hsettles
  obtain ⟨b', hleft'⟩ := exists_balanceAfter_iff.mpr ⟨b₀, hinputs, hneeded.le⟩
  have hsettles' := settles_balanceAfter hinputs hleft'
  refine ⟨b', hleft', ?_, ?_⟩
  · have hunbound := hsettles'.unbound
    exact UInt64.toNat_inj.mp (by rw [UInt64.toNat_zero]; omega)
  · intro a
    have hclaimed := h.claimed a
    have hbound := hsettles.boundTo a
    have hbound' := hsettles'.boundTo a
    exact UInt64.toNat_inj.mp (by rw [UInt64.toNat_zero]; omega)

end Protocol

namespace Draft

variable {d : Draft} {slot : SlotIndex} {b : Balance}

/-- Nothing is left of the balance at a slot: outputs and allotments claim all of it. -/
structure Drains (d : Draft) (slot : SlotIndex) : Prop where
  left : ∃ b, d.balanceLeft slot = .ok b ∧ b.Drained
  assigned : ∃ b₀, d.balance slot = .ok b₀ ∧
    d.transaction.assigned = b₀.total.toNat + b₀.rewards.toNat

/-- Nothing is left exactly if outputs and allotments add up to the mana of inputs and rewards. -/
theorem drained_iff_assigned (h : d.balanceLeft slot = .ok b) :
    b.Drained ↔ ∃ b₀, d.balance slot = .ok b₀ ∧
      d.transaction.assigned = b₀.total.toNat + b₀.rewards.toNat := by
  obtain ⟨b₀, hinputs, hleaves⟩ := Protocol.balanceAfter_eq_ok_iff.mp (mapError_eq_ok_iff.mp h)
  have hworth := (Protocol.settles_of_leaves hinputs hleaves).worth
  have hbalance : d.balance slot = .ok b₀ := mapError_eq_ok_iff.mpr hinputs
  simp only [hbalance, Except.ok.injEq, exists_eq_left', Balance.drained_iff_worth]
  omega

/-- A draft that exhausts the balance that another leaves drains it. -/
theorem drains_of_exhausts {allotments : Allotments} {outputs : List Output}
    {target : Option AccountId} (hleft : d.balanceLeft slot = .ok b)
    (h : d.protocol.Exhausts d.transaction { d with allotments, outputs }.transaction b target) :
    { d with allotments, outputs, failure := none }.Drains slot := by
  obtain ⟨b', hb', hdrained⟩ := h.balanceAfter (mapError_eq_ok_iff.mp hleft)
  have hleft' : { d with allotments, outputs, failure := none }.balanceLeft slot = .ok b' :=
    mapError_eq_ok_iff.mpr hb'
  exact ⟨⟨b', hleft', hdrained⟩, (drained_iff_assigned hleft').mp hdrained⟩

/-! ## The policies -/

/-- Allotting all mana exhausts the balance left: the target is the account named. -/
theorem drains_allotAll {account : AccountId} {minimum : Mana}
    (h : (d.allotAll slot account minimum).failure = none) :
    (d.allotAll slot account minimum).Drains slot := by
  obtain ⟨b, allotments, hleft, heq, hgains⟩ := allotAll_succeeds h
  rw [heq]
  exact drains_of_exhausts (d := d) hleft (.of_allot rfl rfl hgains)

/-- Storing the rest exhausts the balance left: the target is whoever the output's mana stays bound to. -/
theorem drains_store {index : Nat} (h : (d.store slot index).failure = none) :
    { (d.store slot index).draft with failure := none }.Drains slot := by
  obtain ⟨b, found, held, mana, allotments, hleft, hfound, hheld, hmana, hdraft, hgains⟩ :=
    store_succeeds h
  rw [hdraft]
  exact drains_of_exhausts (d := d) hleft (.of_store rfl hfound hheld hmana rfl hgains)

/-- **Balancing policies drain the draft**: one that completes leaves a balance, of which nothing is
left, and outputs and allotments add up to the mana of inputs and rewards. -/
theorem drains_of_policy (d : Draft) (slot : SlotIndex) (account issuer : AccountId)
    (minimum referenceManaCost : Mana) (index : Nat) :
    ((d.allotAll slot account minimum).failure = none →
      (d.allotAll slot account minimum).Drains slot) ∧
    ((d.storeRest slot index).failure = none → (d.storeRest slot index).Drains slot) ∧
    ((d.payAndStoreRest slot referenceManaCost issuer index).failure = none →
      (d.payAndStoreRest slot referenceManaCost issuer index).Drains slot) := by
  refine ⟨drains_allotAll, ?_, ?_⟩ <;> intro h
  · obtain ⟨hstore, heq⟩ := storeRest_succeeds h
    exact heq ▸ drains_store hstore
  · obtain ⟨_, _, -, -, hstore, heq⟩ := payAndStoreRest_succeeds h
    exact heq ▸ drains_store hstore

end Draft

theorem drains_of_policy_sample :
    (sampleDraft.allotAll 0 sampleAccount 0).Drains 0 ∧ (sampleDraft.storeRest 0 0).Drains 0 ∧
      ({ sampleDraft with inputs := [], rewards := 100000 }.payAndStoreRest 0 1 sampleAccount 0).Drains
        0 := by
  obtain ⟨hallot, hstore, -⟩ :=
    Draft.drains_of_policy sampleDraft 0 sampleAccount sampleAccount 0 0 0
  obtain ⟨-, -, hpay⟩ := Draft.drains_of_policy
    { sampleDraft with inputs := [], rewards := 100000 } 0 sampleAccount sampleAccount 0 1 0
  exact ⟨hallot (by decide +kernel), hstore (by decide +kernel), hpay (by decide +kernel)⟩

end ManaWallet
