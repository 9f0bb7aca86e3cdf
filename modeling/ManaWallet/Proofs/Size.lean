import ManaWallet.Transaction
import Mathlib.Algebra.GroupWithZero.Nat

/-!
# Proofs/Size — how many bytes values are written in

Words, digests, allotments and unlocks are of fixed sizes, so the size of a transaction follows from
what it holds: mana stored in an output changes nothing, an allotment adds forty bytes, and a signature
a hundred and six more than a pointer.
-/

namespace ManaWallet

open Canonical

/-! ## Lists -/

theorem length_encode_bytes {n : ℕ} (b : Bytes n) : (encode b).length = n := Vector.length_toList

/-- A list takes eight bytes for its length, and what its values take. -/
theorem length_encode_list {α : Type} [Canonical α] (xs : List α) :
    (encode xs).length = 8 + (xs.map fun x => (encode x).length).sum := by
  have hencode : encode xs = lengthPrefix xs.length ++ xs.flatMap encode := rfl
  rw [hencode, List.length_append, List.length_flatMap, lengthPrefix, length_littleEndian]

/-- A list of values of one size. -/
theorem length_encode_uniform {α : Type} [Canonical α] {size : ℕ}
    (hsize : ∀ x : α, (encode x).length = size) (xs : List α) :
    (encode xs).length = 8 + xs.length * size := by
  simp only [length_encode_list, hsize, List.map_const', List.sum_replicate_nat]

/-- An allotment takes forty bytes. -/
theorem length_encode_allotments (a : Allotments) : (encode a).length = 8 + a.size * 40 := by
  refine length_encode_uniform (fun x => ?_) a.entries
  have hencode : encode x = encode x.accountId.bytes ++ encode x.mana := rfl
  rw [hencode, List.length_append, length_encode_bytes]
  exact congrArg (32 + ·) (length_littleEndian 8 x.mana.toNat)

/-! ## Unlocks -/

/-- A signature takes a hundred and twelve bytes, a pointer six. -/
theorem length_encode_unlock (u : Unlock) :
    (encode u).length = 6 + if u.isSignature then 106 else 0 := by
  cases u with
  | signature s =>
    have hencode : encode (Unlock.signature s)
        = variant 0 ++ (variant 0 ++ encode s.publicKey ++ encode s.bytes.toList) := rfl
    have hbytes := length_encode_uniform (fun x : UInt8 => (rfl : (encode x).length = 1)) s.bytes.toList
    rw [Vector.length_toList] at hbytes
    simp only [hencode, variant, List.length_append, length_littleEndian, length_encode_bytes, hbytes,
      Unlock.isSignature, if_true]
  | reference | account | anchor | nft => rfl

/-- Unlocks take six bytes each, and a hundred and six more for every signature. -/
theorem length_encode_unlocks (us : List Unlock) :
    (encode us).length = 8 + us.length * 6 + us.countP Unlock.isSignature * 106 := by
  have hsum : (us.map fun u => (encode u).length).sum
      = us.length * 6 + us.countP Unlock.isSignature * 106 := by
    induction us with
    | nil => rfl
    | cons u rest ih =>
      rw [List.map_cons, List.sum_cons, ih, length_encode_unlock, List.length_cons, List.countP_cons]
      split <;> omega
  rw [length_encode_list, hsum, Nat.add_assoc]

/-! ## Outputs -/

/-- An output takes what its parts take. -/
theorem length_encode_output (o : Output) :
    (encode o).length
      = 4 + (encode o.amount).length + o.body.toBytes.length + (encode o.conditions).length := by
  have hencode : encode o
      = variant o.kind.index ++ encode o.amount ++ o.body.toBytes ++ encode o.conditions := rfl
  simp only [hencode, variant, List.length_append, length_littleEndian]

/-- Storing other mana leaves the size of an output. -/
theorem length_encode_withStoredMana (o : Output) (mana : Mana) :
    (encode (o.withStoredMana mana)).length = (encode o).length := by
  have hword : ∀ m : Mana, (encode m).length = 8 := fun m => length_littleEndian 8 m.toNat
  obtain ⟨amount, body, conditions⟩ := o
  rw [length_encode_output, length_encode_output]
  cases body <;> simp [Output.withStoredMana, OutputBody.withMana, OutputBody.toBytes, hword]

/-- Putting an output of the same size in the place of another leaves the size of a list. -/
theorem length_encode_set {outputs : List Output} {index : ℕ} {o o' : Output}
    (ho : outputs[index]? = some o) (hsize : (encode o').length = (encode o).length) :
    (encode (outputs.set index o')).length = (encode outputs).length := by
  obtain ⟨hlt, rfl⟩ := List.getElem?_eq_some_iff.mp ho
  have hlt' : index < (outputs.map fun x => (encode x).length).length := by rwa [List.length_map]
  have hsame : (outputs.map fun x => (encode x).length).set index (encode o').length
      = outputs.map fun x => (encode x).length := by
    have hget := List.getElem_map (fun x : Output => (encode x).length) (h := hlt')
    rw [hsize, ← hget, List.set_getElem_self hlt']
  rw [length_encode_list, length_encode_list, List.map_set, hsame]

/-! ## Transactions -/

/-- A transaction takes what its parts take. -/
theorem length_encode_transaction (t : Transaction) :
    (encode t).length = 53 + t.allotments.size * 40 + (encode t.contextInputs).length
      + (encode t.inputs).length + (encode t.payload).length + (encode t.outputs).length := by
  have hencode : encode t = encode t.networkId ++ encode t.creationSlot ++ encode t.contextInputs
      ++ encode t.inputs ++ encode t.inputsCommitment ++ encode t.allotments
      ++ encode t.capabilities.bits ++ encode t.payload ++ encode t.outputs := rfl
  have hnetwork : (encode t.networkId).length = 8 := length_littleEndian 8 _
  have hslot : (encode t.creationSlot).length = 4 := length_littleEndian 4 _
  have hcapabilities : (encode t.capabilities.bits).length = 1 := rfl
  simp only [hencode, List.length_append, hnetwork, hslot, hcapabilities, length_encode_bytes,
    length_encode_allotments]
  omega

end ManaWallet
