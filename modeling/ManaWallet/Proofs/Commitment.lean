import ManaWallet.Proofs.Canonical.Ledger

/-!
# Proofs/Commitment — the inputs commitment binds the outputs consumed

    outputs ──form──▸ bytes ──digest each──▸ digests in a row ──digest──▸ commitment

Nothing marks where one digest ends in the row, and need not: all are of one length, so the row cuts in one
way (`map_digest_eq_of_row_eq`).  Two lists of one commitment are then the same list, or a digest was
taken of two messages somewhere on the way (`inputsCommitment_binds`).  What is signed is a digest of one form
only: it tells transactions apart in the same sense (`Transaction.signingMessage_binds`), and with them the
names of their outputs (`Transaction.outputId_binds`) and of the chains that outputs open
(`ChainName.ofOutputId_binds`).
-/

namespace ManaWallet

/-- Two messages of one digest. -/
structure Collision (m m' : List UInt8) : Prop where
  ne : m ≠ m'
  digest_eq : blake3 m = blake3 m'

/-- **The digest of a form tells the value**, or there are two messages of one digest: the two forms. -/
theorem eq_or_collision {α : Type} [Canonical α] [Legible α] {x y : α}
    (hsize : (encode y).length < UInt64.size) (h : blake3 (encode x) = blake3 (encode y)) :
    x = y ∨ Collision (encode x) (encode y) := by
  by_cases hform : encode x = encode y
  · exact .inl ((Legible.readable hsize).1 hform)
  · exact .inr ⟨hform, h⟩

/-! ## Digests in a row -/

/-- The digest of an output's form. -/
def Output.digest (o : Output) : Bytes 32 := blake3 (encode o)

/-- The digests of outputs, one behind the other. -/
def digestRow (outputs : List Output) : List UInt8 := outputs.flatMap fun o => o.digest.toList

theorem digestRow_cons (o : Output) (rest : List Output) :
    digestRow (o :: rest) = o.digest.toList ++ digestRow rest := List.flatMap_cons

/-- A row with a digest in it is not empty. -/
theorem digestRow_cons_ne_nil (o : Output) (rest : List Output) : digestRow (o :: rest) ≠ [] := by
  rw [digestRow_cons]
  exact List.append_ne_nil_of_left_ne_nil (List.ne_nil_of_length_eq_add_one o.digest.length_toList) _

/-- **A row of digests cuts in one way**, since all have one length. -/
theorem map_digest_eq_of_row_eq {xs ys : List Output} (h : digestRow xs = digestRow ys) :
    xs.map Output.digest = ys.map Output.digest := by
  induction xs generalizing ys with
  | nil =>
    cases ys with
    | nil => rfl
    | cons y ys => exact absurd h.symm (digestRow_cons_ne_nil y ys)
  | cons x xs ih =>
    cases ys with
    | nil => exact absurd h (digestRow_cons_ne_nil x xs)
    | cons y ys =>
      rw [digestRow_cons, digestRow_cons] at h
      have hlength : x.digest.toList.length = y.digest.toList.length :=
        x.digest.length_toList.trans y.digest.length_toList.symm
      obtain ⟨hfirst, hrest⟩ := List.append_inj h hlength
      rw [List.map_cons, List.map_cons, Vector.toList_inj.mp hfirst, ih hrest]

/-- A hasher may take the digests one by one. -/
theorem inputsCommitment_eq_absorbed (outputs : List Output) :
    inputsCommitment outputs
      = (outputs.foldl (fun h o => h.absorb o.digest.toList) Blake3.Hasher.empty).digest :=
  congrArg Blake3.Hasher.digest List.foldl_flatMap

/-! ## Binding -/

/-- Lists of outputs whose digests agree place by place differ at a place where both have one. -/
theorem exists_ne_of_map_digest_eq {xs ys : List Output}
    (hmap : xs.map Output.digest = ys.map Output.digest) (hne : xs ≠ ys) :
    ∃ (i : ℕ) (x y : Output), xs[i]? = some x ∧ ys[i]? = some y ∧ x ≠ y ∧ x.digest = y.digest := by
  obtain ⟨i, hi⟩ := not_forall.mp (mt List.ext_getElem? hne)
  have hdigest : (xs[i]?).map Output.digest = (ys[i]?).map Output.digest := by
    rw [← List.getElem?_map, ← List.getElem?_map, hmap]
  cases hx : xs[i]? with
  | none =>
    rw [hx, Option.map_none] at hdigest
    exact absurd (hx.trans (Option.map_eq_none_iff.mp hdigest.symm).symm) hi
  | some x =>
    rw [hx, Option.map_some] at hdigest
    obtain ⟨y, hy, hxy⟩ := Option.map_eq_some_iff.mp hdigest.symm
    have hplace : x ≠ y := fun heq => hi (by rw [hx, hy, heq])
    exact ⟨i, x, y, hx, hy, hplace, hxy.symm⟩

/-- **The inputs commitment binds the outputs in their order.**  Lists of one commitment are the same list,
or there are two messages of one digest: the forms of the outputs at one place, or the two rows of
digests. -/
theorem inputsCommitment_binds {xs ys : List Output}
    (hsize : ∀ y ∈ ys, (encode y).length < UInt64.size)
    (h : inputsCommitment xs = inputsCommitment ys) :
    xs = ys ∨
      (∃ (i : ℕ) (x y : Output), xs[i]? = some x ∧ ys[i]? = some y ∧ Collision (encode x) (encode y)) ∨
      Collision (digestRow xs) (digestRow ys) := by
  by_cases hrow : digestRow xs = digestRow ys
  · by_cases hsame : xs = ys
    · exact .inl hsame
    · obtain ⟨i, x, y, hx, hy, hne, hdigest⟩ :=
        exists_ne_of_map_digest_eq (map_digest_eq_of_row_eq hrow) hsame
      have hcollision := (eq_or_collision (hsize y (List.mem_of_getElem? hy)) hdigest).resolve_left hne
      exact .inr (.inl ⟨i, x, y, hx, hy, hcollision⟩)
  · exact .inr (.inr ⟨hrow, h⟩)

/-- The wallet's outputs, and the same taken from the draft that consumes them. -/
theorem inputsCommitment_binds_sample :
    (∀ y ∈ sampleDraft.consumed.map Prod.snd, (encode y).length < UInt64.size) ∧
      inputsCommitment (sampleInputs.map Input.output)
        = inputsCommitment (sampleDraft.consumed.map Prod.snd) ∧
      (sampleInputs.map Input.output = sampleDraft.consumed.map Prod.snd ∨
        (∃ (i : ℕ) (x y : Output), (sampleInputs.map Input.output)[i]? = some x ∧
          (sampleDraft.consumed.map Prod.snd)[i]? = some y ∧ Collision (encode x) (encode y)) ∨
        Collision (digestRow (sampleInputs.map Input.output))
          (digestRow (sampleDraft.consumed.map Prod.snd))) := by
  have hsize : ∀ y ∈ sampleDraft.consumed.map Prod.snd, (encode y).length < UInt64.size := by
    decide +kernel
  exact ⟨hsize, rfl, inputsCommitment_binds hsize rfl⟩

/-! ## Names -/

namespace Transaction

variable {t t' : Transaction}

/-- **What is signed tells transactions apart**, or the forms of two are a collision. -/
theorem signingMessage_binds (hsize : (encode t').length < UInt64.size)
    (h : t.signingMessage = t'.signingMessage) : t = t' ∨ Collision (encode t) (encode t') :=
  eq_or_collision hsize h

/-- An output's name tells its place and its transaction. -/
theorem outputId_binds {index index' : UInt16} (hsize : (encode t').length < UInt64.size)
    (h : t.outputId index = t'.outputId index') :
    index = index' ∧ (t = t' ∨ Collision (encode t) (encode t')) := by
  obtain ⟨hid, hindex⟩ := OutputId.mk.inj h
  exact ⟨hindex, signingMessage_binds hsize (TransactionId.mk.inj hid).1⟩

end Transaction

/-- An output's name takes 38 bytes. -/
theorem OutputId.length_encode (id : OutputId) : (encode id).length = 38 := by
  have hencode : encode id = id.transactionId.hash.toList
      ++ littleEndian 4 id.transactionId.slot.toNat ++ littleEndian 2 id.index.toNat := rfl
  rw [hencode, List.length_append, List.length_append, Vector.length_toList, length_littleEndian,
    length_littleEndian]

/-- **Chains that different outputs open have different names**, or the names of the outputs are a
collision. -/
theorem ChainName.ofOutputId_binds {kind : ChainKind} {id id' : OutputId}
    (h : (ofOutputId id : ChainName kind) = ofOutputId id') : id = id' ∨ Collision (encode id) (encode id') :=
  eq_or_collision (by rw [OutputId.length_encode]; decide) (ChainName.mk.inj h)

end ManaWallet
