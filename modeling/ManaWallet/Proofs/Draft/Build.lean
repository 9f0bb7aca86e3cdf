import ManaWallet.Proofs.Draft.Steps
import ManaWallet.Proofs.Size
import ManaWallet.Proofs.Unlocking.Soundness
import ManaWallet.Proofs.WorkScore
import Mathlib.Tactic.Ring

/-!
# Proofs/Draft/Build — what a built transaction weighs

    draft ──build, signing or not──▸ transaction with unlocks ──▸ block ──▸ score

Everything that is counted in a score can be read off the draft: signatures are as many as keys,
whether they are made or only their places filled, and their size is fixed.  A draft weighs what it
weighs without allotments, and the same for each allotment (`weigh_build`).
-/

namespace ManaWallet

namespace Draft

variable {d : Draft} {mode : SigningMode} {s : SignedTransaction}

/-- The keys that sign for the inputs. -/
def keys (d : Draft) : Finset SignerUid := Input.keys d.signer d.inputs

/-- The number of bytes of the built transaction beside its allotments. -/
def bareSize (d : Draft) : ℕ :=
  61 + (encode d.contextInputs).length + (encode (d.inputs.map Input.outputId)).length
    + (encode d.payload).length + (encode d.outputs).length + d.inputs.length * 6 + d.keys.card * 106

/-- What the built transaction weighs beside its allotments. -/
def bareWeight (d : Draft) (p : WorkScoreParameters) : ℕ :=
  d.bareSize * p.dataByte.toNat + d.inputs.length * p.input.toNat
    + d.contextInputs.length * p.contextInput.toNat + d.outputs.length * p.output.toNat
    + d.keys.card * p.signatureEd25519.toNat

/-- What an allotment weighs. -/
def allotmentWeight (p : WorkScoreParameters) : ℕ := p.allotment.toNat + 40 * p.dataByte.toNat

/-- A draft without failure is built into its final form, if all its inputs can be unlocked. -/
theorem build_eq_ok_iff : d.build mode = .ok s ↔ d.failure = none ∧
    ∃ unlocks, unlocksOf d.signer mode d.finalTransaction d.inputs = .ok unlocks ∧
      ⟨d.finalTransaction, unlocks⟩ = s := by
  unfold build
  cases d.failure with
  | some e => simp
  | none => simp [map_eq_ok_iff]

/-- The final form of the draft is built, with an unlock for every input. -/
theorem build_eq_ok (h : d.build mode = .ok s) :
    s.transaction = d.finalTransaction ∧ Resolves d.signer d.inputs s.unlocks := by
  obtain ⟨-, unlocks, hunlocks, rfl⟩ := build_eq_ok_iff.mp h
  exact ⟨rfl, (resolves_of_unlocksOf hunlocks).2⟩

/-- Accounts are allotted what the draft allots them. -/
theorem manaOf_build (h : d.build mode = .ok s) (account : AccountId) :
    s.transaction.allotments.manaOf account = d.allotments.manaOf account := by
  rw [(build_eq_ok h).1]
  exact d.allotments.manaOf_sorted account

/-- There are as many signatures as keys. -/
theorem signatureCount_build (h : d.build mode = .ok s) : s.signatureCount = d.keys.card :=
  (build_eq_ok h).2.signatures

/-- The size of a built transaction, whether it is signed or not. -/
theorem size_build (h : d.build mode = .ok s) : s.size = d.bareSize + d.allotments.size * 40 := by
  obtain ⟨htransaction, hunlocks⟩ := build_eq_ok h
  have hcontext : (encode (sortAscending d.contextInputs)).length = (encode d.contextInputs).length := by
    have hperm := (perm_sortAscending d.contextInputs).map fun x => (encode x).length
    rw [length_encode_list, length_encode_list, hperm.sum_eq]
  have hencode : encode s = encode s.transaction ++ encode s.unlocks := rfl
  have hparts : (encode d.finalTransaction).length = 53 + d.allotments.size * 40
      + (encode d.contextInputs).length + (encode (d.inputs.map Input.outputId)).length
      + (encode d.payload).length + (encode d.outputs).length := by
    rw [length_encode_transaction, ← hcontext, ← d.allotments.size_sorted]
    rfl
  rw [SignedTransaction.size, hencode, List.length_append, htransaction, length_encode_unlocks,
    hunlocks.length_eq, hunlocks.signatures, bareSize, keys]
  omega

/-- **A built transaction weighs the same for every allotment.** -/
theorem weigh_build (h : d.build mode = .ok s) (p : WorkScoreParameters) :
    WorkScore.weigh (p.countsOf s) = d.bareWeight p + d.allotments.size * allotmentWeight p := by
  obtain ⟨htransaction, -⟩ := build_eq_ok h
  have hcontext : (sortAscending d.contextInputs).length = d.contextInputs.length :=
    (perm_sortAscending d.contextInputs).length_eq
  simp only [WorkScore.weigh, WorkScoreParameters.countsOf, htransaction, size_build h,
    signatureCount_build h, finalTransaction, transaction, hcontext, Allotments.size_sorted,
    List.map_cons, List.map_nil, List.sum_cons, List.sum_nil, List.length_map, bareWeight, allotmentWeight]
  ring

end Draft

end ManaWallet
