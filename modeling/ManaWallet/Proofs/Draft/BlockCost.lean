import ManaWallet.Proofs.BlockDraft
import ManaWallet.Proofs.Draft.Build

/-!
# Proofs/Draft/BlockCost — what a block costs, and what its issuer is allotted for it

    draft, issuer counted in ──▸ estimate ──▸ allotment of the issuer
      └──rest stored, bound mana allotted──▸ finished draft ──▸ cost of the block

The estimate is made before bound mana is allotted.  Every account that is allotted mana for the first
time adds an entry that the estimate has not counted, so a block costs its issuer the estimate and what
these entries weigh (`cost_payAndStoreRest`).
-/

namespace ManaWallet

namespace Draft

variable {d : Draft} {slot : SlotIndex} {referenceManaCost : Mana} {issuer : AccountId} {index : ℕ}

/-- The weights that scores are taken with on the network of a draft. -/
abbrev weights (d : Draft) : WorkScoreParameters := d.protocol.parameters.workScoreParameters

open Classical in
/-- The accounts that storing the rest allots mana for the first time: those with more bound to them than
is claimed of them, beside the issuer and the account of the output. -/
noncomputable def newcomers (d : Draft) (slot : SlotIndex) (issuer : AccountId) (index : ℕ) :
    Finset AccountId :=
  Finset.univ.filter fun x => x ∉ insert issuer d.allotments.accounts ∧
    d.outputs[index]?.bind Output.ownAccount? ≠ some x ∧
    ∃ b, d.balance slot = .ok b ∧ d.protocol.claimedOf d.transaction x < (b.boundTo x).toNat

/-! ## The estimate -/

/-- What a block with a built transaction scores. -/
theorem workScore_build {mode : SigningMode} {s : SignedTransaction} {b : Block} {w : WorkScore}
    {p : WorkScoreParameters} (h : d.build mode = .ok s) (hpayload : b.payload = some (.signed s))
    (hscore : b.workScore p = .ok w) :
    w.toNat = p.block.toNat + d.bareWeight p + d.allotments.size * allotmentWeight p := by
  rw [(Block.workScore_of_signed hpayload).mp hscore, weigh_build h, Nat.add_assoc]

/-- **The estimate** counts every account with an entry, and the issuer. -/
theorem toNat_blockCost {cost : Mana} (h : d.blockCost referenceManaCost issuer = .ok cost) :
    cost.toNat = referenceManaCost.toNat * (d.weights.block.toNat + d.bareWeight d.weights
      + (insert issuer d.allotments.accounts).card * allotmentWeight d.weights) := by
  simp only [blockCost, bind_eq_ok_iff, mapError_eq_ok_iff, BlockDraft.cost_eq_ok_iff] at h
  obtain ⟨allotments, hincrease, s, hbuild, w, hscore, hcost⟩ := h
  have hw := workScore_build hbuild rfl hscore
  have haccounts := Allotments.accounts_increase hincrease
  rw [hcost, hw, ← haccounts, Allotments.card_accounts]
  rfl

/-- What is missing is the part of the estimate that the issuer has not been allotted. -/
theorem missingForBlock_eq_ok {missing : Mana}
    (h : d.missingForBlock referenceManaCost issuer = .ok missing) :
    ∃ cost, d.blockCost referenceManaCost issuer = .ok cost ∧
      missing.toNat = cost.toNat - (d.allotments.manaOf issuer).toNat := by
  unfold missingForBlock at h
  split at h
  · nomatch h
  · obtain ⟨cost, hcost, rfl⟩ := map_eq_ok_iff.mp h
    refine ⟨cost, hcost, ?_⟩
    dsimp only
    split
    · next hle => exact UInt64.toNat_sub_of_le _ _ hle
    · next hgt =>
      have hlt := UInt64.lt_iff_toNat_lt.mp (UInt64.not_le.mp hgt)
      rw [UInt64.toNat_zero]
      omega

/-! ## The finished draft -/

/-- Storing mana in an output and allotting it leave the rest of the weight. -/
theorem bareWeight_store {found : Output} {mana : Mana} (p : WorkScoreParameters)
    (hfound : d.outputs[index]? = some found) (allotments : Allotments) (failure : Option DraftError) :
    { d with
      outputs := d.outputs.set index (found.withStoredMana mana)
      allotments
      failure }.bareWeight p = d.bareWeight p := by
  have hsize := length_encode_set hfound (length_encode_withStoredMana found mana)
  simp only [bareWeight, bareSize, keys, hsize, List.length_set]

/-- **Paying for a block and storing the rest** leave the weight beside allotments. -/
theorem bareWeight_payAndStoreRest
    (h : (d.payAndStoreRest slot referenceManaCost issuer index).failure = none) :
    (d.payAndStoreRest slot referenceManaCost issuer index).bareWeight d.weights
      = d.bareWeight d.weights := by
  obtain ⟨_, _, -, -, hstore, heq⟩ := payAndStoreRest_succeeds h
  obtain ⟨_, _, _, _, allotments, -, hfound, -, -, hdraft, -⟩ := store_succeeds hstore
  rw [heq, hdraft]
  exact bareWeight_store d.weights hfound allotments none

/-- **What accounts gain**: the issuer what is missing of the estimate at least, and every other account
what is bound to it beyond what is claimed of it, unless the output takes that. -/
theorem gains_payAndStoreRest
    (h : (d.payAndStoreRest slot referenceManaCost issuer index).failure = none) :
    ∃ cost b found more, d.blockCost referenceManaCost issuer = .ok cost ∧
      d.balance slot = .ok b ∧ d.outputs[index]? = some found ∧
      d.allotments.Gains (d.payAndStoreRest slot referenceManaCost issuer index).allotments more ∧
      cost.toNat ≤ (d.allotments.manaOf issuer).toNat + more issuer ∧
      ∀ x, x ≠ issuer → more x = if x ∈ found.ownAccount?.toList then 0
        else (b.boundTo x).toNat - d.protocol.claimedOf d.transaction x := by
  obtain ⟨missing, paid, hmissing, hpaid, hstore, heq⟩ := payAndStoreRest_succeeds h
  obtain ⟨left, found, _, _, allotments, hleft, hfound, -, -, hdraft, hgains⟩ := store_succeeds hstore
  obtain ⟨cost, hcost, hmissing⟩ := missingForBlock_eq_ok hmissing
  obtain ⟨b, hinputs, hleaves⟩ := Protocol.balanceAfter_eq_ok_iff.mp (mapError_eq_ok_iff.mp hleft)
  have hsettles := Protocol.settles_of_leaves hinputs hleaves
  rw [heq, hdraft]
  refine ⟨cost, b, found, _, hcost, mapError_eq_ok_iff.mpr hinputs, hfound,
    hpaid.trans hgains, ?_, ?_⟩
  · rw [if_pos rfl]
    omega
  · intro x hx
    -- paying the issuer claims nothing of another account
    have hmana := hpaid.mana x
    rw [if_neg (Ne.symm hx), Nat.add_zero] at hmana
    have hclaimed : d.protocol.claimedOf { d with allotments := paid }.transaction x
        = d.protocol.claimedOf d.transaction x := by
      rw [Protocol.claimedOf_eq, Protocol.claimedOf_eq]
      exact congrArg (_ + ·) hmana
    rw [if_neg (Ne.symm hx), Nat.zero_add, hsettles.boundTo x, ← hclaimed]

/-- **The newcomers are those who have an entry then**, beside the issuer and those who had one before. -/
theorem newcomers_eq (h : (d.payAndStoreRest slot referenceManaCost issuer index).failure = none) :
    d.newcomers slot issuer index
      = (d.payAndStoreRest slot referenceManaCost issuer index).allotments.accounts
        \ insert issuer d.allotments.accounts := by
  obtain ⟨_, b, found, more, -, hbalance, hfound, hgains, -, hmore⟩ := gains_payAndStoreRest h
  ext x
  rw [Finset.mem_sdiff, hgains.accounts]
  simp only [newcomers, Finset.mem_filter, Finset.mem_univ, true_and, hbalance, hfound,
    Except.ok.injEq, exists_eq_left', Option.bind_some]
  rw [and_comm (b := x ∉ insert issuer d.allotments.accounts)]
  refine and_congr_right fun hx => ?_
  obtain ⟨hissuer, hentry⟩ := not_or.mp (mt Finset.mem_insert.mpr hx)
  rw [hmore x hissuer, or_iff_right hentry]
  split
  · next hown => simp [Option.mem_toList.mp hown]
  · next hown => simp [mt Option.mem_toList.mpr hown, Nat.sub_ne_zero_iff_lt]

/-! ## The cost -/

/-- An issuer with an entry: the entries are those estimated and those of the newcomers. -/
theorem card_accounts_of_mem
    (h : (d.payAndStoreRest slot referenceManaCost issuer index).failure = none)
    (hissuer : issuer ∈ (d.payAndStoreRest slot referenceManaCost issuer index).allotments.accounts) :
    (d.payAndStoreRest slot referenceManaCost issuer index).allotments.accounts.card
      = (d.newcomers slot issuer index).card + (insert issuer d.allotments.accounts).card := by
  obtain ⟨_, _, _, more, -, -, -, hgains, -⟩ := gains_payAndStoreRest h
  have hsub : insert issuer d.allotments.accounts
      ⊆ (d.payAndStoreRest slot referenceManaCost issuer index).allotments.accounts :=
    Finset.insert_subset_iff.mpr ⟨hissuer, fun x hx => (hgains.accounts x).mpr (Or.inl hx)⟩
  rw [newcomers_eq h, Finset.card_sdiff_add_card_eq_card hsub]

/-- An issuer without an entry has been estimated to pay nothing. -/
theorem blockCost_eq_zero_of_notMem {cost : Mana}
    (h : (d.payAndStoreRest slot referenceManaCost issuer index).failure = none)
    (hcost : d.blockCost referenceManaCost issuer = .ok cost)
    (hissuer : issuer ∉ (d.payAndStoreRest slot referenceManaCost issuer index).allotments.accounts) :
    cost.toNat = 0 := by
  obtain ⟨cost', _, _, more, hcost', -, -, hgains, hpaid, -⟩ := gains_payAndStoreRest h
  obtain rfl := Except.ok.inj (hcost.symm.trans hcost')
  obtain ⟨hentry, hmore⟩ := not_or.mp (mt (hgains.accounts issuer).mpr hissuer)
  have hzero : d.allotments.manaOf issuer = 0 := by
    by_contra hne
    exact hentry (Allotments.mem_accounts_of_manaOf hne)
  rw [hzero, UInt64.toNat_zero] at hpaid
  omega

/-- Where nothing is estimated, nothing that is counted has a price or a weight. -/
theorem free_of_blockCost_eq_zero {cost : Mana}
    (hcost : d.blockCost referenceManaCost issuer = .ok cost) (hzero : cost.toNat = 0) :
    referenceManaCost.toNat = 0 ∨
      d.weights.block.toNat + d.bareWeight d.weights = 0 ∧ allotmentWeight d.weights = 0 := by
  have hestimate := toNat_blockCost hcost
  rw [hzero, eq_comm, Nat.mul_eq_zero, Nat.add_eq_zero_iff, Nat.mul_eq_zero] at hestimate
  have hcard : (insert issuer d.allotments.accounts).card ≠ 0 :=
    Finset.card_ne_zero_of_mem (Finset.mem_insert_self _ _)
  exact hestimate.imp_right (And.imp_right (Or.resolve_left · hcard))

/-- **A block costs the estimate and what the newcomers weigh.** -/
theorem cost_payAndStoreRest {mode : SigningMode} {s : SignedTransaction} {block : Block}
    {w : WorkScore} {cost : Mana}
    (h : (d.payAndStoreRest slot referenceManaCost issuer index).failure = none)
    (hbuild : (d.payAndStoreRest slot referenceManaCost issuer index).build mode = .ok s)
    (hcost : d.blockCost referenceManaCost issuer = .ok cost)
    (hpayload : block.payload = some (.signed s)) (hscore : block.workScore d.weights = .ok w) :
    referenceManaCost.toNat * w.toNat = cost.toNat
      + referenceManaCost.toNat * ((d.newcomers slot issuer index).card * allotmentWeight d.weights) := by
  have hw := workScore_build hbuild hpayload hscore
  rw [bareWeight_payAndStoreRest h, ← Allotments.card_accounts] at hw
  by_cases hissuer : issuer ∈ (d.payAndStoreRest slot referenceManaCost issuer index).allotments.accounts
  · rw [hw, toNat_blockCost hcost, card_accounts_of_mem h hissuer]
    ring
  · have hzero := blockCost_eq_zero_of_notMem h hcost hissuer
    rcases free_of_blockCost_eq_zero hcost hzero with hprice | ⟨hbase, hfree⟩
    · rw [hzero, hprice, Nat.zero_mul, Nat.zero_mul]
    · rw [hw, hzero, hbase, hfree]
      simp only [Nat.mul_zero, Nat.add_zero]

/-- **An issuer can pay for a block exactly if the allotment covers what the newcomers weigh**, beside
the estimate, which it always covers. -/
theorem payAndStoreRest_pays_iff (d : Draft) (slot : SlotIndex) (referenceManaCost : Mana)
    (issuer : AccountId) (index : ℕ) (s : SignedTransaction)
    (h : (d.payAndStoreRest slot referenceManaCost issuer index).failure = none)
    (hbuild : (d.payAndStoreRest slot referenceManaCost issuer index).build .sign = .ok s) :
    ∃ estimate, d.blockCost referenceManaCost issuer = .ok estimate ∧
      estimate ≤ s.transaction.allotments.manaOf issuer ∧
      ∀ (block : Block) (w : WorkScore), block.header.issuerId = issuer →
        block.payload = some (.signed s) → block.workScore d.weights = .ok w →
          ((∃ c, manaCost referenceManaCost w = .ok c ∧ c ≤ s.transaction.allotments.manaOf issuer) ↔
            estimate.toNat + referenceManaCost.toNat
                * ((d.newcomers slot issuer index).card * allotmentWeight d.weights)
              ≤ (s.transaction.allotments.manaOf issuer).toNat) := by
  obtain ⟨cost, -, -, more, hcost, -, -, hgains, hpaid, -⟩ := gains_payAndStoreRest h
  have hmana : s.transaction.allotments.manaOf issuer
      = (d.payAndStoreRest slot referenceManaCost issuer index).allotments.manaOf issuer := by
    rw [(build_eq_ok hbuild).1]
    exact Allotments.manaOf_sorted _ issuer
  rw [← hgains.mana, ← hmana] at hpaid
  refine ⟨cost, hcost, UInt64.le_iff_toNat_le.mpr hpaid, ?_⟩
  intro block w _ hpayload hscore
  rw [exists_manaCost_le_iff, cost_payAndStoreRest h hbuild hcost hpayload hscore]

end Draft

/-! ## A wallet that pays, and one that falls short -/

/-- An account that issues blocks and is not in the wallet. -/
def sampleIssuer : AccountId := ⟨.replicate 32 9⟩

/-- The wallet with rewards to pay from. -/
def sampleFunded : Draft := { sampleDraft with contextInputs := [.reward 0], rewards := 100000 }

/-- The rewards alone. -/
def sampleRewards : Draft := { sampleFunded with inputs := [] }

theorem payAndStoreRest_pays_iff_sample :
    ∃ s, (sampleRewards.payAndStoreRest 0 1 sampleIssuer 0).build .sign = .ok s ∧
      ∀ (block : Block) (w : WorkScore), block.header.issuerId = sampleIssuer →
        block.payload = some (.signed s) → block.workScore sampleRewards.weights = .ok w →
          ∃ c, manaCost 1 w = .ok c ∧ c ≤ s.transaction.allotments.manaOf sampleIssuer := by
  have hnone : (sampleRewards.payAndStoreRest 0 1 sampleIssuer 0).failure = none := by
    decide +kernel
  have hnew : sampleRewards.newcomers 0 sampleIssuer 0 = ∅ := by
    rw [Draft.newcomers_eq hnone]
    decide +kernel
  obtain ⟨allotments, outputs, hframe⟩ := Draft.payAndStoreRest_frame hnone
  obtain ⟨s, hbuild⟩ : ∃ s, (sampleRewards.payAndStoreRest 0 1 sampleIssuer 0).build .sign = .ok s :=
    ⟨⟨_, []⟩, by rw [hframe]; rfl⟩
  obtain ⟨estimate, -, hestimate, hiff⟩ :=
    Draft.payAndStoreRest_pays_iff _ 0 1 sampleIssuer 0 s hnone hbuild
  refine ⟨s, hbuild, fun block w hissuer hpayload hscore => (hiff block w hissuer hpayload hscore).mpr ?_⟩
  rw [hnew, Finset.card_empty, Nat.zero_mul, Nat.mul_zero, Nat.add_zero]
  exact UInt64.le_iff_toNat_le.mp hestimate

/-- A block of the issuer. -/
def sampleBlock (s : SignedTransaction) : Block :=
  BlockDraft.block { protocol := .standard, issuerId := sampleIssuer, payload := some (.signed s) }

/-- Drafts on the wallet's inputs are built with its unlocks. -/
theorem build_of_sampleInputs {d : Draft} (mode : SigningMode) (hfailure : d.failure = none)
    (hsigner : d.signer = sampleSigner) (hinputs : d.inputs = sampleInputs) :
    d.build mode
      = .ok ⟨d.finalTransaction, [.signature (.placeholder (.zero 32)), .account 0, .reference 0]⟩ :=
  Draft.build_eq_ok_iff.mpr ⟨hfailure, _, by rw [hsigner, hinputs, unlocksOf_sampleInputs], rfl⟩

/-- The estimate for the wallet counts the issuer's entry and no other. -/
theorem missingForBlock_sampleFunded : sampleFunded.missingForBlock 1 sampleIssuer = .ok 2603 := by
  have hbuild : ∀ allotments, { sampleFunded with allotments }.build .placeholder = _ :=
    fun _ => build_of_sampleInputs .placeholder rfl rfl rfl
  simp only [Draft.missingForBlock, Draft.blockCost, hbuild]
  decide +kernel

/-- The wallet after the issuer is paid and the rest is stored. -/
def sampleOutcome : Outcome := (sampleFunded.allot sampleIssuer 2603).andThen fun d => d.store 0 0

theorem payAndStoreRest_sampleFunded : sampleFunded.payAndStoreRest 0 1 sampleIssuer 0
    = { sampleOutcome.draft with failure := sampleOutcome.failure } := by
  simp only [Draft.payAndStoreRest, Draft.apply, missingForBlock_sampleFunded, Draft.proceed]
  rfl

/-- **An issuer who cannot pay**: the policy completes and the transaction is built, but the account of
the wallet is allotted its mana only after the estimate, and the block costs 3643 where 2603 are
allotted. -/
theorem issuer_falls_short :
    (sampleFunded.payAndStoreRest 0 1 sampleIssuer 0).failure = none ∧
      ∃ (s : SignedTransaction) (block : Block) (w : WorkScore) (c : Mana),
        (sampleFunded.payAndStoreRest 0 1 sampleIssuer 0).build .sign = .ok s ∧
        block.header.issuerId = sampleIssuer ∧ block.payload = some (.signed s) ∧
        block.workScore sampleFunded.weights = .ok w ∧ manaCost 1 w = .ok c ∧
        s.transaction.allotments.manaOf sampleIssuer < c := by
  have hnone : (sampleFunded.payAndStoreRest 0 1 sampleIssuer 0).failure = none := by
    rw [payAndStoreRest_sampleFunded]
    decide +kernel
  obtain ⟨allotments, outputs, hframe⟩ := Draft.payAndStoreRest_frame hnone
  have hbuild := build_of_sampleInputs .sign hnone (hframe ▸ rfl) (hframe ▸ rfl)
  have hweigh := Draft.weigh_build hbuild sampleFunded.weights
  rw [Draft.bareWeight_payAndStoreRest hnone, payAndStoreRest_sampleFunded] at hweigh
  have hcounted : sampleFunded.bareWeight sampleFunded.weights
      + sampleOutcome.draft.allotments.size * Draft.allotmentWeight sampleFunded.weights = 3543 := by
    decide +kernel
  refine ⟨hnone, _, sampleBlock _, 3643, 3643, hbuild, rfl, rfl, ?_, by decide, ?_⟩
  · refine (Block.workScore_of_signed rfl).mpr ?_
    rw [payAndStoreRest_sampleFunded, hweigh, hcounted]
    rfl
  · refine (Allotments.manaOf_sorted _ sampleIssuer).trans_lt ?_
    rw [payAndStoreRest_sampleFunded]
    decide +kernel

end ManaWallet
