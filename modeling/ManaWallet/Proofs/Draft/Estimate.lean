import ManaWallet.Proofs.Draft.BlockCost
import ManaWallet.Proofs.Unlocking.Acceptance

/-!
# Proofs/Draft/Estimate — asking what a block costs, and allotting it

    draft ──issuer entered, places filled──▸ price ──put back──▸ draft and answer
      └──answer allotted──▸ paid draft ──signed──▸ block that costs what is allotted

A draft is priced with an entry of the issuer and without signatures.  The price is the reference cost
times a score that can be read off the draft (`blockCost_eq_ok_iff`), and a key ring that can fill the
places can sign; so allotting the answer is enough, and asking again gives nothing
(`askMissing_suffices`).
-/

namespace ManaWallet

/-- An account can be allotted mana as far as the sum fits in a word. -/
theorem Allotments.increase_eq_ok_iff {a a' : Allotments} {account : AccountId} {mana : Mana} :
    a.increase account mana = .ok a' ↔
      (a.manaOf account).toNat + mana.toNat < UInt64.size ∧
        a.set account (a.manaOf account + mana) = a' := by
  unfold increase checkedAdd
  split
  · next hfits => simp [hfits, Except.map]
  · next hfits => simp [hfits, Except.map]

namespace Draft

variable {d : Draft} {referenceManaCost cost missing : Mana} {issuer : AccountId}
  {mode : SigningMode} {s : SignedTransaction}

/-! ## Asking -/

/-- The answer to the question is the cost of a block. -/
theorem enterIssuer_answer (d : Draft) (referenceManaCost : Mana) (issuer : AccountId) :
    (d.enterIssuer referenceManaCost issuer).answer = d.blockCost referenceManaCost issuer := by
  unfold enterIssuer blockCost
  cases d.allotments.increase issuer 1 <;> rfl

/-- Only the allotments are changed on the way. -/
theorem restore_enterIssuer (d : Draft) (referenceManaCost : Mana) (issuer : AccountId) :
    { (d.enterIssuer referenceManaCost issuer).draft with allotments := d.allotments } = d := by
  unfold enterIssuer
  cases d.allotments.increase issuer 1 <;> rfl

/-- **Asking leaves the draft as it was**, whether there is an answer or not. -/
theorem askMissing_eq (d : Draft) (referenceManaCost : Mana) (issuer : AccountId) :
    d.askMissing referenceManaCost issuer
      = ⟨d, d.missingForBlock referenceManaCost issuer⟩ := by
  unfold askMissing missingForBlock
  cases d.failure with
  | some e => rfl
  | none => simp only [restore_enterIssuer, enterIssuer_answer]

/-! ## Building -/

/-- A draft is built exactly if no step has failed and all of its inputs can be unlocked. -/
theorem exists_build_iff :
    (∃ s, d.build mode = .ok s) ↔ d.failure = none ∧ d.inputs.length ≤ UInt16.size ∧
      AllUnlockable d.signer (mode.message d.finalTransaction) d.inputs := by
  constructor
  · rintro ⟨s, hbuild⟩
    obtain ⟨hfailure, unlocks, hunlocks, -⟩ := build_eq_ok_iff.mp hbuild
    have hfew := (resolves_of_unlocksOf hunlocks).1
    exact ⟨hfailure, hfew, (exists_unlocksOf_iff hfew).mp ⟨unlocks, hunlocks⟩⟩
  · rintro ⟨hfailure, hfew, hall⟩
    obtain ⟨unlocks, hunlocks⟩ := (exists_unlocksOf_iff hfew).mpr hall
    exact ⟨_, build_eq_ok_iff.mpr ⟨hfailure, unlocks, hunlocks, rfl⟩⟩

/-- Places of signatures are filled whatever the transaction is. -/
theorem exists_placeholder_iff :
    (∃ s, d.build .placeholder = .ok s) ↔ d.failure = none ∧ d.inputs.length ≤ UInt16.size ∧
      AllUnlockable d.signer none d.inputs :=
  exists_build_iff

/-- Allotments make no difference to what can be unlocked. -/
theorem exists_placeholder_of_allotments (allotments : Allotments)
    (h : ∃ s, d.build .placeholder = .ok s) :
    ∃ s, { d with allotments }.build .placeholder = .ok s := by
  obtain ⟨hfailure, hfew, hall⟩ := exists_placeholder_iff.mp h
  exact exists_placeholder_iff.mpr ⟨hfailure, hfew, hall⟩

/-! ## Scores -/

/-- The score of a block with the draft as payload. -/
def score (d : Draft) : ℕ :=
  d.weights.block.toNat + d.bareWeight d.weights + d.allotments.size * allotmentWeight d.weights

/-- The score that a block is priced with: the issuer has an entry, whether it will be allotted mana or
not. -/
def estimatedScore (d : Draft) (issuer : AccountId) : ℕ :=
  d.weights.block.toNat + d.bareWeight d.weights
    + (insert issuer d.allotments.accounts).card * allotmentWeight d.weights

/-- A block with the built transaction has the score of the draft. -/
theorem workScore_build_iff {b : Block} {w : WorkScore} (h : d.build mode = .ok s)
    (hpayload : b.payload = some (.signed s)) :
    b.workScore d.weights = .ok w ↔ w.toNat = d.score := by
  rw [Block.workScore_of_signed hpayload, weigh_build h, ← Nat.add_assoc]
  rfl

/-- No draft scores more than it is priced with. -/
theorem score_le_estimatedScore (d : Draft) (issuer : AccountId) :
    d.score ≤ d.estimatedScore issuer := by
  have hcard := Finset.card_le_card (Finset.subset_insert issuer d.allotments.accounts)
  rw [Allotments.card_accounts] at hcard
  exact Nat.add_le_add_left (Nat.mul_le_mul_right _ hcard) _

/-- A draft in which the issuer has an entry scores what it is priced with. -/
theorem score_eq_estimatedScore (h : issuer ∈ d.allotments.accounts) :
    d.score = d.estimatedScore issuer := by
  rw [estimatedScore, Finset.insert_eq_of_mem h, Allotments.card_accounts]
  rfl

/-! ## The price -/

/-- A price of a block with the draft as payload: the reference cost times a score that fits. -/
structure Priced (d : Draft) (referenceManaCost : Mana) (issuer : AccountId) (cost : Mana) :
    Prop where
  fits : d.estimatedScore issuer < UInt32.size
  toNat_eq : cost.toNat = referenceManaCost.toNat * d.estimatedScore issuer

/-- **A draft is priced exactly if it can be built with an entry of the issuer** and its score fits. -/
theorem blockCost_eq_ok_iff :
    d.blockCost referenceManaCost issuer = .ok cost ↔
      (d.allotments.manaOf issuer).toNat + 1 < UInt64.size ∧
      (∃ s, d.build .placeholder = .ok s) ∧ d.Priced referenceManaCost issuer cost := by
  simp only [blockCost, bind_eq_ok_iff, mapError_eq_ok_iff, BlockDraft.cost_eq_ok_iff]
  constructor
  · rintro ⟨allotments, hincrease, s, hbuild, w, hscore, hcost⟩
    have haccounts := Allotments.accounts_increase hincrease
    have hw : w.toNat = d.estimatedScore issuer := by
      have hmem : issuer ∈ allotments.accounts := haccounts ▸ Finset.mem_insert_self _ _
      rw [(workScore_build_iff hbuild rfl).mp hscore, score, ← Allotments.card_accounts, haccounts]
      rfl
    have hplaces := exists_placeholder_of_allotments d.allotments ⟨s, hbuild⟩
    exact ⟨(Allotments.increase_eq_ok_iff.mp hincrease).1, hplaces,
      ⟨hw ▸ w.toNat_lt_size, hw ▸ hcost⟩⟩
  · rintro ⟨hfits, hbuild, ⟨hscore, hcost⟩⟩
    obtain ⟨allotments, hincrease⟩ : ∃ a, d.allotments.increase issuer 1 = .ok a :=
      ⟨_, Allotments.increase_eq_ok_iff.mpr ⟨hfits, rfl⟩⟩
    obtain ⟨s, hbuild⟩ := exists_placeholder_of_allotments allotments hbuild
    obtain ⟨w, hw⟩ := WorkScore.exists_score hscore
    refine ⟨allotments, hincrease, s, hbuild, w, (workScore_build_iff hbuild rfl).mpr ?_,
      hw.symm ▸ hcost⟩
    rw [hw, score, ← Allotments.card_accounts, Allotments.accounts_increase hincrease]
    rfl

/-- What is missing is the part of the price that the issuer has not been allotted. -/
theorem missingForBlock_eq_ok_iff :
    d.missingForBlock referenceManaCost issuer = .ok missing ↔
      ∃ cost, d.blockCost referenceManaCost issuer = .ok cost ∧
        missing.toNat = cost.toNat - (d.allotments.manaOf issuer).toNat := by
  refine ⟨missingForBlock_eq_ok, ?_⟩
  rintro ⟨cost, hcost, hmissing⟩
  obtain ⟨-, hbuild, -⟩ := blockCost_eq_ok_iff.mp hcost
  unfold missingForBlock
  rw [(exists_placeholder_iff.mp hbuild).1, hcost]
  refine congrArg Except.ok (UInt64.toNat_inj.mp ?_)
  dsimp only
  split
  · next hle => rw [UInt64.toNat_sub_of_le _ _ hle, hmissing]
  · next hgt =>
    have hlt := UInt64.lt_iff_toNat_lt.mp (UInt64.not_le.mp hgt)
    rw [UInt64.toNat_zero, hmissing]
    omega

/-! ## Paying -/

/-- A draft that is another one with further mana for an account. -/
structure Pays (d : Draft) (account : AccountId) (mana : Mana) (paid : Draft) : Prop where
  draft : paid = { d with allotments := paid.allotments }
  gains : d.allotments.Gains paid.allotments fun x => if account = x then mana.toNat else 0

/-- Allotting an account as much as fits in a word gives it that much. -/
theorem pays_increaseAllotment {account : AccountId} {mana : Mana} (hfailure : d.failure = none)
    (hfits : (d.allotments.manaOf account).toNat + mana.toNat < UInt64.size) :
    d.Pays account mana (d.increaseAllotment account mana) := by
  have hallot : (d.allot account mana).failure = none := by
    unfold allot
    split
    · rfl
    · rw [Allotments.increase_eq_ok_iff.mpr ⟨hfits, rfl⟩]
      rfl
  obtain ⟨allotments, hdraft, hgains⟩ := allot_succeeds hallot
  have hpaid : d.increaseAllotment account mana = { d with allotments } := by
    simp only [increaseAllotment, apply, hfailure, hdraft, hallot]
  rw [hpaid]
  exact ⟨rfl, hgains⟩

namespace Pays

variable {paid : Draft}

/-- The account has what it had and the mana. -/
theorem manaOf (h : d.Pays issuer missing paid) :
    (paid.allotments.manaOf issuer).toNat
      = (d.allotments.manaOf issuer).toNat + missing.toNat := by
  rw [h.gains.mana, if_pos rfl]

/-- An issuer who is paid what is missing of the price can pay it, and has no more if something was
missing. -/
theorem covers (h : d.Pays issuer missing paid)
    (hmissing : missing.toNat = cost.toNat - (d.allotments.manaOf issuer).toNat) :
    cost ≤ paid.allotments.manaOf issuer ∧
      (missing ≠ 0 → cost = paid.allotments.manaOf issuer) := by
  have hmana := h.manaOf
  refine ⟨UInt64.le_iff_toNat_le.mpr (by omega), fun hne => UInt64.toNat_inj.mp ?_⟩
  have hpos : missing.toNat ≠ 0 := fun hzero => hne (UInt64.toNat_inj.mp hzero)
  omega

/-- The account has an entry if it was given something. -/
theorem mem_accounts (h : d.Pays issuer missing paid) (hmissing : missing ≠ 0) :
    issuer ∈ paid.allotments.accounts := by
  refine (h.gains.accounts issuer).mpr (Or.inr ?_)
  rw [if_pos rfl]
  exact fun hzero => hmissing (UInt64.toNat_inj.mp hzero)

/-- A draft that pays the issuer is scored as before: the issuer was counted in already. -/
theorem estimatedScore (h : d.Pays issuer missing paid) :
    paid.estimatedScore issuer = d.estimatedScore issuer := by
  have haccounts : insert issuer paid.allotments.accounts = insert issuer d.allotments.accounts := by
    ext x
    rw [Finset.mem_insert, Finset.mem_insert, h.gains.accounts]
    by_cases hx : issuer = x <;> simp [hx, eq_comm]
  rw [Draft.estimatedScore, haccounts, h.draft]
  rfl

/-- … and so it has the same price. -/
theorem priced (h : d.Pays issuer missing paid) (hprice : d.Priced referenceManaCost issuer cost) :
    paid.Priced referenceManaCost issuer cost :=
  ⟨h.estimatedScore ▸ hprice.fits, h.estimatedScore ▸ hprice.toNat_eq⟩

/-- Places of signatures are filled as before. -/
theorem placeholder (h : d.Pays issuer missing paid) (hplaces : ∃ s, d.build .placeholder = .ok s) :
    ∃ s, paid.build .placeholder = .ok s :=
  h.draft ▸ exists_placeholder_of_allotments paid.allotments hplaces

theorem weights_eq (h : d.Pays issuer missing paid) : paid.weights = d.weights := by
  rw [h.draft]

theorem signer_eq (h : d.Pays issuer missing paid) : paid.signer = d.signer := by
  rw [h.draft]

theorem failure_eq (h : d.Pays issuer missing paid) : paid.failure = d.failure := by
  rw [h.draft]

end Pays

/-- **A key ring builds what it can price.** -/
theorem exists_build_of_placeholder {ring : KeyRing} (mode : SigningMode)
    (hsigner : d.signer = ring.signer) (h : ∃ s, d.build .placeholder = .ok s) :
    ∃ s, d.build mode = .ok s := by
  obtain ⟨hfailure, hfew, hall⟩ := exists_placeholder_iff.mp h
  rw [hsigner] at hall
  refine exists_build_iff.mpr ⟨hfailure, hfew, ?_⟩
  rw [hsigner]
  exact KeyRing.allUnlockable_of_allUnlockable _ hall

/-- **A block costs its price at most**, and exactly that where the issuer has an entry. -/
theorem Priced.exists_cost_le (hprice : d.Priced referenceManaCost issuer cost)
    (hbuild : d.build mode = .ok s) {block : Block} (hpayload : block.payload = some (.signed s)) :
    ∃ w c, block.workScore d.weights = .ok w ∧ manaCost referenceManaCost w = .ok c ∧ c ≤ cost ∧
      (issuer ∈ d.allotments.accounts → c = cost) := by
  have hle := d.score_le_estimatedScore issuer
  have hproduct := Nat.mul_le_mul_left referenceManaCost.toNat hle
  rw [← hprice.toNat_eq] at hproduct
  obtain ⟨w, hw⟩ := WorkScore.exists_score (Nat.lt_of_le_of_lt hle hprice.fits)
  obtain ⟨c, hc⟩ := exists_word (Nat.lt_of_le_of_lt hproduct cost.toNat_lt)
  refine ⟨w, c, (workScore_build_iff hbuild hpayload).mpr hw, manaCost_eq_ok_iff.mpr (by rw [hc, hw]),
    ?_, ?_⟩
  · rwa [UInt64.le_iff_toNat_le, hc]
  · intro hmem
    rw [← UInt64.toNat_inj, hc, hprice.toNat_eq, score_eq_estimatedScore hmem]

/-- **Asking what is missing for a block changes nothing, and allotting it is enough.**  The draft is as
it was, answer or not.  With the answer allotted there is no failure, the draft is built, and a block with
it costs what the issuer is allotted at most, and exactly that where something was missing; asked again,
nothing is missing. -/
theorem askMissing_suffices (ring : KeyRing) (d : Draft) (referenceManaCost : Mana)
    (issuer : AccountId) (hsigner : d.signer = ring.signer) :
    (d.askMissing referenceManaCost issuer).draft = d ∧
    ∀ missing, (d.askMissing referenceManaCost issuer).answer = .ok missing →
      (d.increaseAllotment issuer missing).failure = none ∧
      ∃ s, (d.increaseAllotment issuer missing).build .sign = .ok s ∧
        (∀ block : Block, block.header.issuerId = issuer → block.payload = some (.signed s) →
          ∃ w c, block.workScore d.weights = .ok w ∧ manaCost referenceManaCost w = .ok c ∧
            c ≤ s.transaction.allotments.manaOf issuer ∧
            (missing ≠ 0 → c = s.transaction.allotments.manaOf issuer)) ∧
        ((s.transaction.allotments.manaOf issuer).toNat + 1 < UInt64.size →
          ((d.increaseAllotment issuer missing).askMissing referenceManaCost issuer).answer
            = .ok 0) := by
  simp only [askMissing_eq]
  refine ⟨trivial, fun missing hanswer => ?_⟩
  obtain ⟨cost, hcost, hmissing⟩ := missingForBlock_eq_ok_iff.mp hanswer
  obtain ⟨-, hplaces, hprice⟩ := blockCost_eq_ok_iff.mp hcost
  have hfailure := (exists_placeholder_iff.mp hplaces).1
  -- what is allotted and what is missing make up the price, or more than it
  have hword := cost.toNat_lt_size
  have hallotted := (d.allotments.manaOf issuer).toNat_lt_size
  have hfits : (d.allotments.manaOf issuer).toNat + missing.toNat < UInt64.size := by omega
  have hpays := pays_increaseAllotment hfailure hfits
  generalize d.increaseAllotment issuer missing = paid at hpays ⊢
  obtain ⟨hcovers, hexact⟩ := hpays.covers hmissing
  obtain ⟨s, hbuild⟩ :=
    exists_build_of_placeholder .sign (hpays.signer_eq.trans hsigner) (hpays.placeholder hplaces)
  have hprice := hpays.priced hprice
  refine ⟨hpays.failure_eq.trans hfailure, s, hbuild, ?_, ?_⟩
  · intro block _ hpayload
    obtain ⟨w, c, hscore, hc, hle, heq⟩ := hprice.exists_cost_le hbuild hpayload
    rw [manaOf_build hbuild]
    exact ⟨w, c, hpays.weights_eq ▸ hscore, hc, UInt64.le_trans hle hcovers, fun hne =>
      (heq (hpays.mem_accounts hne)).trans (hexact hne)⟩
  · intro hroom
    rw [manaOf_build hbuild] at hroom
    have hasked := blockCost_eq_ok_iff.mpr ⟨hroom, hpays.placeholder hplaces, hprice⟩
    have hnothing := Nat.sub_eq_zero_of_le (UInt64.le_iff_toNat_le.mp hcovers)
    exact missingForBlock_eq_ok_iff.mpr ⟨cost, hasked, hnothing.symm⟩

end Draft

/-! ## A wallet with one key -/

/-- A key. -/
def samplePair : Ed25519.KeyPair := ⟨.replicate 32 1⟩

/-- The key ring that holds the key. -/
def sampleRing : KeyRing := .ofSeeds [.replicate 32 1]

/-- The address of the key. -/
def sampleKeyAddress : Address := .ed25519 (.ofPublicKey samplePair.publicKey)

/-- A draft that moves an output of the key to another owner. -/
def sampleKeyDraft : Draft where
  protocol := Protocol.standard
  signer := sampleRing.signer
  inputs := [⟨⟨⟨.zero 32, 0⟩, 0⟩, .basic 1000000 500 sampleKeyAddress, sampleKeyAddress⟩]
  outputs := [.basic 1000000 0 sampleOwner]

/-- The key ring signs for the address. -/
theorem pairFor_sampleKeyAddress : sampleRing.pairFor sampleKeyAddress = .ok samplePair := by
  have hheld : sampleRing.keys[KeyHash.ofPublicKey samplePair.publicKey]? = some samplePair :=
    Std.HashMap.getElem?_insert_self
  simp only [KeyRing.pairFor, KeyRing.keyHash, sampleKeyAddress, Address.keyHash?,
    Address.unrestricted, bind, Except.bind, hheld, pure, Except.pure]

/-- The output of the key can be unlocked. -/
theorem exists_placeholder_sampleKeyDraft : ∃ s, sampleKeyDraft.build .placeholder = .ok s := by
  refine Draft.exists_placeholder_iff.mpr ⟨rfl, by decide, fun i input hinput => ?_⟩
  obtain ⟨rfl, rfl⟩ : i = 0 ∧ sampleKeyDraft.inputs[0] = input := by
    rcases i with _ | i
    · exact ⟨rfl, Option.some.inj hinput⟩
    · exact nomatch hinput
  have hkey : sampleKeyDraft.inputs[0].signerUid? sampleRing.signer
      = some ⟨(KeyHash.ofPublicKey samplePair.publicKey).bytes⟩ := rfl
  obtain ⟨s, hs⟩ := KeyRing.exists_answers_iff.mpr ⟨samplePair, pairFor_sampleKeyAddress⟩
  exact .signature hkey hs

/-- The draft scores an entry of the issuer and one signature. -/
theorem estimatedScore_sampleKeyDraft : sampleKeyDraft.estimatedScore sampleIssuer = 2469 := by
  have hkeys : sampleKeyDraft.keys.card = 1 := Finset.card_singleton _
  simp only [Draft.estimatedScore, Draft.bareWeight, Draft.bareSize, hkeys]
  decide +kernel

/-- At a reference cost of 2 the issuer needs 4938. -/
theorem askMissing_sampleKeyDraft : (sampleKeyDraft.askMissing 2 sampleIssuer).answer = .ok 4938 := by
  rw [Draft.askMissing_eq]
  refine Draft.missingForBlock_eq_ok_iff.mpr ⟨4938, Draft.blockCost_eq_ok_iff.mpr
    ⟨by decide, exists_placeholder_sampleKeyDraft, ⟨?_, ?_⟩⟩, rfl⟩
  all_goals
    rw [estimatedScore_sampleKeyDraft]
    decide

theorem askMissing_suffices_sample :
    sampleKeyDraft.signer = sampleRing.signer ∧
      (sampleKeyDraft.askMissing 2 sampleIssuer).answer = .ok 4938 ∧
      ∃ s, (sampleKeyDraft.increaseAllotment sampleIssuer 4938).build .sign = .ok s ∧
        s.transaction.allotments.manaOf sampleIssuer = 4938 ∧
        (∃ w, (sampleBlock s).workScore sampleKeyDraft.weights = .ok w ∧ manaCost 2 w = .ok 4938) ∧
        ((sampleKeyDraft.increaseAllotment sampleIssuer 4938).askMissing 2 sampleIssuer).answer
          = .ok 0 := by
  obtain ⟨-, hsuffices⟩ := Draft.askMissing_suffices sampleRing sampleKeyDraft 2 sampleIssuer rfl
  obtain ⟨-, s, hbuild, hblock, hagain⟩ := hsuffices 4938 askMissing_sampleKeyDraft
  have hmana : s.transaction.allotments.manaOf sampleIssuer = 4938 := by
    rw [Draft.manaOf_build hbuild]
    decide +kernel
  obtain ⟨w, c, hscore, hcost, -, heq⟩ := hblock (sampleBlock s) rfl rfl
  rw [heq (by decide), hmana] at hcost
  exact ⟨rfl, askMissing_sampleKeyDraft, s, hbuild, hmana, ⟨w, hscore, hcost⟩,
    hagain (hmana ▸ by decide)⟩

end ManaWallet
