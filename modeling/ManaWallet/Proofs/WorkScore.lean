import ManaWallet.Block
import ManaWallet.Proofs.Arithmetic.Totals
import Mathlib.Algebra.BigOperators.Group.List.Basic
import Mathlib.Algebra.GroupWithZero.Nat

/-!
# Proofs/WorkScore — scores are the weighted counts of what is there

    counts, as words ──products, sums, each checked──▸ score of a payload ──▸ score of a block

A count that does not fit in a word is clamped, but then no score fits either; so a score, where there
is one, is the sum of the naturals, and there is one exactly if that sum fits in 32 bits
(`score_eq_ok_iff`).  Each step only adds to the one before it, so none fails on the way to a block whose
exact score fits (`Block.workScore_eq_ok_iff`).
-/

namespace ManaWallet

namespace WorkScore

/-- The sum of counts times their weights. -/
def weigh (counts : List (ℕ × WorkScore)) : ℕ := (counts.map fun c => c.1 * c.2.toNat).sum

/-- A count as far as a word holds it. -/
def clamp (count : ℕ) : ℕ := min count (UInt64.size - 1)

/-- The counts as far as a word holds each. -/
def clamped (counts : List (ℕ × WorkScore)) : List (ℕ × WorkScore) :=
  counts.map fun c => (clamp c.1, c.2)

theorem weigh_cons (c : ℕ × WorkScore) (rest : List (ℕ × WorkScore)) :
    weigh (c :: rest) = c.1 * c.2.toNat + weigh rest := by
  rw [weigh, List.map_cons, List.sum_cons, weigh]

/-- A natural that fits in 32 bits is that of a score. -/
theorem exists_score {n : ℕ} (h : n < UInt32.size) : ∃ w : WorkScore, w.toNat = n :=
  ⟨.ofNat n, UInt32.toNat_ofNat_of_lt' h⟩

theorem toNat_ofCount (count : ℕ) : (ofCount count).toNat = clamp count :=
  UInt64.toNat_ofNat_of_lt' (Nat.lt_of_le_of_lt (Nat.min_le_right _ _) (by decide))

/-! ## Words -/

/-- A sum in words is that of the clamped counts, and there is one exactly if that fits. -/
theorem weightedSum_eq_ok_iff {sum total : UInt64} {counts : List (ℕ × WorkScore)} :
    weightedSum sum counts = .ok total ↔ total.toNat = sum.toNat + weigh (clamped counts) := by
  induction counts generalizing sum with
  | nil => simp [weightedSum, weigh, clamped, eq_comm, ← UInt64.toNat_inj]
  | cons c rest ih =>
    have hweigh : weigh (clamped (c :: rest)) = clamp c.1 * c.2.toNat + weigh (clamped rest) :=
      weigh_cons _ _
    have htotal := total.toNat_lt_size
    simp only [weightedSum, bind_eq_ok_iff, checkedMul_eq_ok_iff, checkedAdd_eq_ok_iff, ih, hweigh,
      toNat_ofCount, UInt32.toNat_toUInt64]
    constructor
    · rintro ⟨product, hproduct, partial', hpartial, h⟩
      omega
    · intro h
      have hproduct : (UInt64.ofNat (clamp c.1 * c.2.toNat)).toNat = clamp c.1 * c.2.toNat :=
        UInt64.toNat_ofNat_of_lt' (by omega)
      have hsum : (UInt64.ofNat (sum.toNat + clamp c.1 * c.2.toNat)).toNat
          = sum.toNat + clamp c.1 * c.2.toNat := UInt64.toNat_ofNat_of_lt' (by omega)
      exact ⟨_, hproduct, _, by rw [hsum, hproduct], by omega⟩

theorem ofSum_eq_ok_iff {sum : UInt64} {w : WorkScore} : ofSum sum = .ok w ↔ w.toNat = sum.toNat := by
  have hw := w.toNat_lt_size
  unfold ofSum
  split
  · next h => rw [Except.ok.injEq, ← UInt32.toNat_inj, UInt64.toNat_toUInt32, Nat.mod_eq_of_lt h, eq_comm]
  · next h =>
    simp only [reduceCtorEq, false_iff]
    omega

/-! ## Clamping -/

/-- A product that fits in 32 bits is the same for the clamped count. -/
theorem clamp_mul {count weight : ℕ} (h : clamp count * weight < UInt32.size) :
    clamp count * weight = count * weight := by
  unfold clamp at h ⊢
  rcases Nat.eq_zero_or_pos weight with rfl | hpos
  · rfl
  · have hle : min count (UInt64.size - 1) ≤ min count (UInt64.size - 1) * weight :=
      Nat.le_mul_of_pos_right _ hpos
    have hlt : min count (UInt64.size - 1) < UInt32.size := by omega
    have hsize : UInt32.size < UInt64.size - 1 := by decide
    rw [Nat.min_eq_left (by omega)]

/-- Clamped counts weigh no more. -/
theorem weigh_clamped_le (counts : List (ℕ × WorkScore)) : weigh (clamped counts) ≤ weigh counts := by
  induction counts with
  | nil => exact Nat.le_refl _
  | cons c rest ih =>
    rw [clamped, List.map_cons, weigh_cons, weigh_cons]
    exact Nat.add_le_add (Nat.mul_le_mul_right _ (Nat.min_le_left _ _)) ih

/-- Counts whose clamped weight fits in 32 bits are weighed exactly. -/
theorem weigh_clamped {counts : List (ℕ × WorkScore)} (h : weigh (clamped counts) < UInt32.size) :
    weigh (clamped counts) = weigh counts := by
  induction counts with
  | nil => rfl
  | cons c rest ih =>
    rw [clamped, List.map_cons, weigh_cons] at h ⊢
    have hrest : weigh (clamped rest) = weigh rest := ih (Nat.lt_of_le_of_lt (Nat.le_add_left _ _) h)
    have hone := clamp_mul (Nat.lt_of_le_of_lt (Nat.le_add_right _ _) h)
    rw [weigh_cons, ← hone, ← hrest]
    rfl

/-- **A score of counts is what they weigh.** -/
theorem score_eq_ok_iff {counts : List (ℕ × WorkScore)} {w : WorkScore} :
    (weightedSum 0 counts >>= ofSum) = .ok w ↔ w.toNat = weigh counts := by
  have hw := w.toNat_lt_size
  have hle := weigh_clamped_le counts
  simp only [bind_eq_ok_iff, weightedSum_eq_ok_iff, ofSum_eq_ok_iff, UInt64.toNat_zero, Nat.zero_add]
  constructor
  · rintro ⟨total, htotal, h⟩
    rw [h, htotal, weigh_clamped (by omega)]
  · intro h
    have hclamped : weigh (clamped counts) = weigh counts := weigh_clamped (by omega)
    have htotal : (UInt64.ofNat (weigh counts)).toNat = weigh counts :=
      UInt64.toNat_ofNat_of_lt' (h ▸ Nat.lt_trans hw (by decide))
    exact ⟨_, htotal.trans hclamped.symm, h.trans htotal.symm⟩

end WorkScore

variable {p : WorkScoreParameters} {s : SignedTransaction} {w : WorkScore}

/-! ## Payloads and blocks -/

/-- The score of a payload in unbounded numbers. -/
def Payload.exactScore (p : WorkScoreParameters) : Payload → ℕ
  | .signed s =>
    s.size * p.dataByte.toNat + s.transaction.inputs.length * p.input.toNat
      + s.transaction.contextInputs.length * p.contextInput.toNat
      + s.transaction.outputs.length * p.output.toNat
      + s.transaction.allotments.size * p.allotment.toNat
      + s.signatureCount * p.signatureEd25519.toNat
  | .tagged d => (encode d).length * p.dataByte.toNat

/-- The score of a block in unbounded numbers. -/
def Block.exactScore (b : Block) (p : WorkScoreParameters) : ℕ :=
  p.block.toNat + b.payload.elim 0 (Payload.exactScore p)

theorem WorkScoreParameters.weigh_countsOf :
    WorkScore.weigh (p.countsOf s) = (Payload.signed s).exactScore p := by
  simp only [WorkScore.weigh, WorkScoreParameters.countsOf, Payload.exactScore, List.map_cons,
    List.map_nil, List.sum_cons, List.sum_nil, Nat.add_zero, Nat.add_assoc]

/-- A signed transaction scores what is counted of it. -/
theorem WorkScoreParameters.ofSigned_eq_ok_iff :
    p.ofSigned s = .ok w ↔ w.toNat = WorkScore.weigh (p.countsOf s) :=
  WorkScore.score_eq_ok_iff

/-- Tagged data scores its bytes. -/
theorem WorkScoreParameters.ofTagged_eq_ok_iff {d : TaggedData} :
    p.ofTagged d = .ok w ↔ w.toNat = (encode d).length * p.dataByte.toNat := by
  have hw := w.toNat_lt_size
  simp only [ofTagged, bind_eq_ok_iff, checkedMul_eq_ok_iff, WorkScore.ofSum_eq_ok_iff,
    WorkScore.toNat_ofCount, UInt32.toNat_toUInt64]
  constructor
  · rintro ⟨product, hproduct, h⟩
    rw [h, hproduct, WorkScore.clamp_mul (by omega)]
  · intro h
    have hclamped : WorkScore.clamp (encode d).length * p.dataByte.toNat
        ≤ (encode d).length * p.dataByte.toNat := Nat.mul_le_mul_right _ (Nat.min_le_left _ _)
    refine ⟨w.toUInt64, ?_, (UInt32.toNat_toUInt64 w).symm⟩
    rw [UInt32.toNat_toUInt64, h, WorkScore.clamp_mul (by omega)]

/-- A payload has the exact score or none. -/
theorem Payload.workScore_eq_ok_iff {payload : Payload} :
    payload.workScore p = .ok w ↔ w.toNat = payload.exactScore p := by
  cases payload with
  | signed s => exact WorkScoreParameters.weigh_countsOf ▸ WorkScoreParameters.ofSigned_eq_ok_iff
  | tagged d => exact WorkScoreParameters.ofTagged_eq_ok_iff

/-- A block adds its own weight to the score of its payload. -/
theorem WorkScoreParameters.ofBlock_eq_ok_iff {payload : WorkScore} :
    p.ofBlock payload = .ok w ↔ w.toNat = p.block.toNat + payload.toNat := by
  simp only [ofBlock, bind_eq_ok_iff, checkedAdd_eq_ok_iff, WorkScore.ofSum_eq_ok_iff,
    UInt32.toNat_toUInt64]
  constructor
  · rintro ⟨sum, hsum, h⟩
    rw [h, hsum]
  · intro h
    have hw : w.toUInt64.toNat = w.toNat := UInt32.toNat_toUInt64 w
    exact ⟨w.toUInt64, hw.trans h, hw.symm⟩

/-- **A block has the exact score or none**: what fits in the end fits on the way. -/
theorem Block.workScore_eq_ok_iff {b : Block} :
    b.workScore p = .ok w ↔ w.toNat = b.exactScore p := by
  have hw := w.toNat_lt_size
  unfold Block.workScore Block.exactScore
  cases b.payload with
  | none => exact WorkScoreParameters.ofBlock_eq_ok_iff
  | some payload =>
    simp only [bind_eq_ok_iff, Payload.workScore_eq_ok_iff, WorkScoreParameters.ofBlock_eq_ok_iff,
      Option.elim_some]
    constructor
    · rintro ⟨score, hscore, h⟩
      rw [h, hscore]
    · intro h
      obtain ⟨score, hscore⟩ := WorkScore.exists_score (n := payload.exactScore p) (by omega)
      exact ⟨score, hscore, hscore.symm ▸ h⟩

/-- A block has a score exactly if the exact one fits in 32 bits. -/
theorem Block.exists_workScore_iff {b : Block} :
    (∃ w, b.workScore p = .ok w) ↔ b.exactScore p < UInt32.size := by
  simp only [Block.workScore_eq_ok_iff]
  constructor
  · rintro ⟨w, hw⟩
    exact hw ▸ w.toNat_lt_size
  · exact WorkScore.exists_score

/-- A block with a signed transaction scores its own weight and what is counted of the transaction. -/
theorem Block.workScore_of_signed {b : Block} (hpayload : b.payload = some (.signed s)) :
    b.workScore p = .ok w ↔ w.toNat = p.block.toNat + WorkScore.weigh (p.countsOf s) := by
  rw [Block.workScore_eq_ok_iff, Block.exactScore, hpayload, Option.elim_some,
    WorkScoreParameters.weigh_countsOf]

/-- A cost is the reference cost times the score. -/
theorem manaCost_eq_ok_iff {referenceManaCost c : Mana} :
    manaCost referenceManaCost w = .ok c ↔ c.toNat = referenceManaCost.toNat * w.toNat := by
  rw [manaCost, checkedMul_eq_ok_iff, UInt32.toNat_toUInt64]

/-- Mana covers what a block costs exactly if it covers the product. -/
theorem exists_manaCost_le_iff {referenceManaCost mana : Mana} :
    (∃ c, manaCost referenceManaCost w = .ok c ∧ c ≤ mana) ↔
      referenceManaCost.toNat * w.toNat ≤ mana.toNat := by
  simp only [manaCost_eq_ok_iff, UInt64.le_iff_toNat_le]
  constructor
  · rintro ⟨c, hc, hle⟩
    exact hc ▸ hle
  · intro hle
    obtain ⟨c, hc⟩ := exists_word (Nat.lt_of_le_of_lt hle mana.toNat_lt)
    exact ⟨c, hc, hc.trans_le hle⟩

end ManaWallet
