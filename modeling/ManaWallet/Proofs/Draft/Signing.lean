import ManaWallet.Proofs.Draft.Canonical
import ManaWallet.Proofs.Draft.Estimate
import ManaWallet.Proofs.Unlocking.Signatures

/-!
# Proofs/Draft/Signing — what the signatures of a built transaction say

    draft ──build──▸ final transaction ──message──▸ signatures of the owners' keys
                            └─────────without it──▸ places for the same signatures

With a key ring, a signature is made of the message of the transaction that is returned, by the key that
the owner of its input is addressed by (`signature_of_build`).  That transaction is the draft's in canonical
form, tied to the outputs it consumes (`Finalizes`).  Without a message the ring leaves blank what it would
sign, and nothing else is different (`build_placeholder`): no check and no count looks at what a signature
holds.
-/

namespace ManaWallet

/-- A key pair whose signature of a message is accepted under its public key. -/
def Ed25519.KeyPair.Accepted (pair : Ed25519.KeyPair) (message : Bytes 32) : Prop :=
  ∃ k, Ed25519.PublicKey.ofBytes? pair.publicKey = .ok k ∧
    k.verify message.toList (pair.sign message.toList) = .ok ()

namespace Signature

/-- The signature without its contents: the key stays. -/
def blank (s : Signature) : Signature := ⟨s.publicKey, .zero 64⟩

/-- A signature by which the owner of an input agrees to a message. -/
structure Authorizes (s : Signature) (owner : Address) (message : Bytes 32) : Prop where
  /-- The owner is addressed by the digest of the key, behind one restriction at most. -/
  key : owner.unrestricted = .ed25519 ⟨blake3 s.publicKey.toList⟩ ∨
    owner.unrestricted = .implicitAccountCreation ⟨blake3 s.publicKey.toList⟩
  accepted : ∃ k, Ed25519.PublicKey.ofBytes? s.publicKey = .ok k ∧ k.verify message.toList s.bytes = .ok ()

end Signature

/-- An owner whom a signature unlocks is addressed by the digest of a key. -/
theorem Address.eq_of_keyHash? {a : Address} {key : KeyHash} (hsigned : a.isSigned)
    (hkey : a.keyHash? = some key) : a = .ed25519 key ∨ a = .implicitAccountCreation key := by
  cases a with
  | ed25519 hash => exact .inl (congrArg _ (Option.some.inj hkey))
  | implicitAccountCreation hash => exact .inr (congrArg _ (Option.some.inj hkey))
  | account | nft | anchor | multi | restricted => exact nomatch hsigned

namespace Draft

variable {ring : KeyRing} {d : Draft} {s : SignedTransaction} {mode : SigningMode} {i : ℕ}

/-! ## Signatures of the message -/

/-- The unlocks of a built transaction are those of its inputs. -/
theorem unlocksOf_of_build (h : d.build mode = .ok s) :
    unlocksOf d.signer mode s.transaction d.inputs = .ok s.unlocks := by
  obtain ⟨-, unlocks, hunlocks, rfl⟩ := build_eq_ok_iff.mp h
  exact hunlocks

/-- An owner whose unlock points to no chain is one whom a signature unlocks. -/
theorem isSigned_of_build {input : Input} {unlock : Unlock} (h : d.build mode = .ok s)
    (hinput : d.inputs[i]? = some input) (hunlock : s.unlocks[i]? = some unlock)
    (hkind : unlock.chainKind? = none) : input.owner.unrestricted.isSigned :=
  ((build_eq_ok h).2.unlockedBy hinput hunlock).isSigned hkind

/-- **A signature is made of the message of the transaction**, by a pair of the ring whose public key the
owner of the input is addressed by. -/
theorem signature_of_build {signature : Signature} (hsigner : d.signer = ring.signer)
    (h : d.build .sign = .ok s) (hunlock : s.unlocks[i]? = some (.signature signature)) :
    ∃ input pair, d.inputs[i]? = some input ∧ (∃ key : KeyHash, ring.keys[key]? = some pair) ∧
      input.owner.unrestricted.keyHash? = some (.ofPublicKey pair.publicKey) ∧
      signature = ⟨pair.publicKey, pair.sign s.transaction.signingMessage.toList⟩ := by
  obtain ⟨input, hinput, hsignature⟩ := signature_of_unlocksOf (unlocksOf_of_build h) hunlock
  rw [hsigner] at hsignature
  obtain ⟨pair, hpair, rfl⟩ := map_eq_ok_iff.mp hsignature
  obtain ⟨hkey, hheld⟩ := KeyRing.pairFor_eq_ok hpair
  exact ⟨input, pair, hinput, hheld, hkey, rfl⟩

/-- **Every signature authorizes what is returned.**  The transaction is the draft's in canonical form, tied
to the outputs it consumes.  A signature has the key that the owner of its input is addressed by and is
accepted over the message of the transaction; and a reference points to such a signature of the key of its
own input.  That what a pair signs is accepted is assumed of the pairs in the ring. -/
theorem signatures_authorize (ring : KeyRing) (d : Draft) (s : SignedTransaction)
    (hsigner : d.signer = ring.signer) (h : d.build .sign = .ok s)
    (haccepted : ∀ (key : KeyHash) (pair : Ed25519.KeyPair), ring.keys[key]? = some pair →
      pair.Accepted s.transaction.signingMessage) :
    d.Finalizes s.transaction ∧
    (∀ (i : ℕ) (signature : Signature), s.unlocks[i]? = some (.signature signature) →
      ∃ input, d.inputs[i]? = some input ∧
        signature.Authorizes input.owner s.transaction.signingMessage) ∧
    ∀ (i : ℕ) (j : UInt16), s.unlocks[i]? = some (.reference j) → ∃ input signature,
      d.inputs[i]? = some input ∧ s.unlocks[j.toNat]? = some (.signature signature) ∧
      signature.Authorizes input.owner s.transaction.signingMessage := by
  have hsigned : ∀ (i : ℕ) (signature : Signature), s.unlocks[i]? = some (.signature signature) →
      ∃ input, d.inputs[i]? = some input ∧
        input.owner.unrestricted.keyHash? = some ⟨blake3 signature.publicKey.toList⟩ ∧
        signature.Authorizes input.owner s.transaction.signingMessage := by
    intro i signature hunlock
    obtain ⟨input, pair, hinput, ⟨key, hheld⟩, hkey, rfl⟩ := signature_of_build hsigner h hunlock
    have howner := isSigned_of_build h hinput hunlock rfl
    exact ⟨input, hinput, hkey, Address.eq_of_keyHash? howner hkey, haccepted key pair hheld⟩
  refine ⟨finalizes_build h, fun i signature hunlock => ?_, fun i j hunlock => ?_⟩
  · obtain ⟨input, hinput, -, hauthorizes⟩ := hsigned i signature hunlock
    exact ⟨input, hinput, hauthorizes⟩
  · obtain ⟨-, ⟨signature, hsignature⟩, earlier, input, uid, hearlier, hinput, huid, huid'⟩ :=
      (build_eq_ok h).2.reference hunlock
    obtain ⟨found, hfound, hkey, hauthorizes⟩ := hsigned _ _ hsignature
    obtain rfl := Option.some.inj (hearlier.symm.trans hfound)
    -- the owners are the same to the ring, and so addressed by one key
    rw [hsigner, KeyRing.uid_eq_ok_iff] at huid huid'
    have howner := isSigned_of_build h hinput hunlock rfl
    have hkey' := huid'.trans (huid.symm.trans hkey)
    exact ⟨input, signature, hinput, hsignature, Address.eq_of_keyHash? howner hkey',
      hauthorizes.accepted⟩

end Draft

/-- A draft that moves two outputs of the key, one of them behind a restriction; context inputs and
allotments are out of order. -/
def sampleSharedDraft : Draft where
  protocol := Protocol.standard
  signer := sampleRing.signer
  contextInputs := [.reward 0, .commitment ⟨.zero 32, 0⟩]
  inputs :=
    [⟨samplePlace 0, .basic 1000000 500 sampleKeyAddress, sampleKeyAddress⟩,
      ⟨samplePlace 1, .basic 1000000 0 sampleKeyAddress, .restricted sampleKeyAddress .all⟩]
  allotments := ⟨[⟨otherAccount, 2⟩, ⟨sampleAccount, 3⟩], by decide⟩
  outputs := [.basic 2000000 0 sampleOwner]

/-- Its transaction: the commitment before the reward, and the accounts in ascending order. -/
def sampleSharedTransaction : Transaction where
  networkId := Protocol.standard.parameters.networkId
  contextInputs := [.commitment ⟨.zero 32, 0⟩, .reward 0]
  inputs := [samplePlace 0, samplePlace 1]
  inputsCommitment := inputsCommitment
    [.basic 1000000 500 sampleKeyAddress, .basic 1000000 0 sampleKeyAddress]
  allotments := ⟨[⟨sampleAccount, 3⟩, ⟨otherAccount, 2⟩], by decide⟩
  outputs := [.basic 2000000 0 sampleOwner]

/-- Both lists are sorted. -/
theorem finalTransaction_sampleSharedDraft :
    sampleSharedDraft.finalTransaction = sampleSharedTransaction := by
  have hcontexts : sortAscending sampleSharedDraft.contextInputs = sampleSharedTransaction.contextInputs :=
    sortAscending_eq (.swap _ _ _) (by decide +kernel) fun _ _ _ _ => sortKey_injective_contextInput
  have hallotments : sampleSharedDraft.allotments.sorted = sampleSharedTransaction.allotments :=
    Allotments.ext_entries (Allotments.entries_sorted_eq (.swap _ _ _) (by decide +kernel))
  rw [Draft.finalTransaction, hcontexts, hallotments]
  rfl

/-- The key signs for the first of its outputs, and the unlock of the other points there. -/
theorem build_sampleSharedDraft : ∃ contents, sampleSharedDraft.build .sign
    = .ok ⟨sampleSharedTransaction, [.signature ⟨samplePair.publicKey, contents⟩, .reference 0]⟩ := by
  obtain ⟨uid, huid⟩ : ∃ uid, sampleRing.signer.uid sampleKeyAddress = .ok uid := ⟨_, rfl⟩
  obtain ⟨contents, hcontents⟩ : ∃ contents, sampleRing.signer.sign sampleKeyAddress
      sampleSharedTransaction.signingMessage.toList = .ok ⟨samplePair.publicKey, contents⟩ :=
    ⟨_, congrArg (Except.map _) pairFor_sampleKeyAddress⟩
  have hbare : sampleKeyAddress.unrestricted = sampleKeyAddress := rfl
  have hrestricted : ∀ a c, (Address.restricted a c).unrestricted = a := fun _ _ => rfl
  have hchain : sampleKeyAddress.chainId? = none := rfl
  have hsigned : sampleKeyAddress.isSigned := rfl
  have hunlocks : unlocksOf sampleRing.signer .sign sampleSharedTransaction sampleSharedDraft.inputs
      = .ok [.signature ⟨samplePair.publicKey, contents⟩, .reference 0] := by
    have hinputs : sampleSharedDraft.inputs =
        [⟨samplePlace 0, .basic 1000000 500 sampleKeyAddress, sampleKeyAddress⟩,
          ⟨samplePlace 1, .basic 1000000 0 sampleKeyAddress, .restricted sampleKeyAddress .all⟩] := rfl
    rw [hinputs]
    -- neither the owner nor the message is looked into
    generalize sampleSharedTransaction = t at hcontents ⊢
    generalize sampleRing.signer = signer at huid hcontents ⊢
    generalize sampleKeyAddress = owner at *
    simp [unlocksOf, UInt16.size, Unlocked.addAll, Unlocked.add, Unlocked.unlock, Unlocked.unlockByKey,
      Unlocked.chainOf, Unlocked.signatureOf, Output.chainId?, Output.basic, hbare, hrestricted, hchain,
      hsigned, huid, hcontents, bind, Except.bind, pure, Except.pure, Except.map, Except.mapError]
  rw [← finalTransaction_sampleSharedDraft] at hunlocks ⊢
  exact ⟨contents, Draft.build_eq_ok_iff.mpr ⟨rfl, _, hunlocks, rfl⟩⟩

/-- The ring with one key holds no other. -/
theorem eq_samplePair {key : KeyHash} {pair : Ed25519.KeyPair} (h : sampleRing.keys[key]? = some pair) :
    pair = samplePair := by
  have hkeys : sampleRing.keys
      = (∅ : Std.HashMap KeyHash Ed25519.KeyPair).insert (.ofPublicKey samplePair.publicKey) samplePair :=
    rfl
  rw [hkeys, Std.HashMap.getElem?_insert] at h
  split at h
  · exact (Option.some.inj h).symm
  · exact nomatch Std.HashMap.getElem?_empty.symm.trans h

/-- Under the key, what it signs of the draft is accepted, and a place without contents is not. -/
theorem verified_samplePair :
    ((Ed25519.PublicKey.ofBytes? samplePair.publicKey).map fun k =>
      (k.verify sampleSharedTransaction.signingMessage.toList
          (samplePair.sign sampleSharedTransaction.signingMessage.toList),
        k.verify sampleSharedTransaction.signingMessage.toList (.zero 64)))
      = .ok (.ok (), .error .verificationFailed) := by
  decide +kernel

/-- The signature and the reference to it each authorize their input, the lists are in order, and a place
without contents authorizes nothing. -/
theorem signatures_authorize_sample :
    sampleSharedDraft.signer = sampleRing.signer ∧
      ∃ s signature, sampleSharedDraft.build .sign = .ok s ∧
        s.unlocks = [.signature signature, .reference 0] ∧
        s.transaction.contextInputs = [.commitment ⟨.zero 32, 0⟩, .reward 0] ∧
        s.transaction.allotments.entries = [⟨sampleAccount, 3⟩, ⟨otherAccount, 2⟩] ∧
        sampleSharedDraft.Finalizes s.transaction ∧
        signature.Authorizes sampleKeyAddress s.transaction.signingMessage ∧
        signature.Authorizes (.restricted sampleKeyAddress .all) s.transaction.signingMessage ∧
        ¬ signature.blank.Authorizes sampleKeyAddress s.transaction.signingMessage := by
  obtain ⟨k, hk, hverified⟩ := map_eq_ok_iff.mp verified_samplePair
  obtain ⟨haccepted, hrejected⟩ := Prod.mk.inj hverified
  have hpairs : ∀ (key : KeyHash) (pair : Ed25519.KeyPair), sampleRing.keys[key]? = some pair →
      pair.Accepted sampleSharedTransaction.signingMessage := by
    intro key pair hheld
    rw [eq_samplePair hheld]
    exact ⟨k, hk, haccepted⟩
  obtain ⟨contents, hbuild⟩ := build_sampleSharedDraft
  obtain ⟨hfinal, hsigned, hreference⟩ :=
    Draft.signatures_authorize sampleRing sampleSharedDraft _ rfl hbuild hpairs
  obtain ⟨input, hinput, hauthorizes⟩ := hsigned 0 _ rfl
  obtain ⟨input', signature, hinput', hsignature, hauthorizes'⟩ := hreference 1 0 rfl
  obtain rfl := Option.some.inj hinput
  obtain rfl := Option.some.inj hinput'
  obtain rfl := Unlock.signature.inj (Option.some.inj hsignature)
  refine ⟨rfl, _, _, hbuild, rfl, rfl, rfl, hfinal, hauthorizes, hauthorizes', fun hblank => ?_⟩
  obtain ⟨k', hk', hblank⟩ := hblank.accepted
  obtain rfl := Except.ok.inj (hk.symm.trans hk')
  exact nomatch hrejected.symm.trans hblank

/-! ## Places for signatures -/

/-- Unlocks that differ in the contents of a signature at most, for which the first has zeros. -/
inductive Unlock.Outlines : Unlock → Unlock → Prop where
  | signature (publicKey : Bytes 32) (bytes : Bytes 64) :
      Outlines (.signature ⟨publicKey, .zero 64⟩) (.signature ⟨publicKey, bytes⟩)
  | reference (index : UInt16) : Outlines (.reference index) (.reference index)
  | account (index : UInt16) : Outlines (.account index) (.account index)
  | anchor (index : UInt16) : Outlines (.anchor index) (.anchor index)
  | nft (index : UInt16) : Outlines (.nft index) (.nft index)

namespace SignedTransaction

/-- The transaction with its signatures left blank. -/
def blank (s : SignedTransaction) : SignedTransaction :=
  { s with unlocks := s.unlocks.map (Unlock.mapSignature Signature.blank) }

/-- A transaction in which the signatures of another are left blank: nothing that is counted tells the two
apart. -/
structure Outlines (p s : SignedTransaction) : Prop where
  transaction : p.transaction = s.transaction
  length_eq : p.unlocks.length = s.unlocks.length
  /-- The entries are the same, but for the contents of signatures. -/
  unlocks : p.unlocks = s.unlocks.map (Unlock.mapSignature Signature.blank)
  /-- The public keys are the same, and where contents were there are zeros. -/
  entries : List.Forall₂ Unlock.Outlines p.unlocks s.unlocks
  size : p.size = s.size
  workScore : ∀ (block : Block) (weights : WorkScoreParameters),
    { block with payload := some (.signed p) }.workScore weights
      = { block with payload := some (.signed s) }.workScore weights
  cost : ∀ (block : BlockDraft) (referenceManaCost : Mana),
    { block with payload := some (.signed p) }.cost referenceManaCost
      = { block with payload := some (.signed s) }.cost referenceManaCost

/-- As many signatures are blank as there were. -/
theorem signatureCount_blank (s : SignedTransaction) : s.blank.signatureCount = s.signatureCount := by
  have hsame : Unlock.isSignature ∘ Unlock.mapSignature Signature.blank = Unlock.isSignature := by
    funext unlock
    cases unlock <;> rfl
  rw [signatureCount, blank, List.countP_map, hsame, signatureCount]

/-- A blank signature takes as many bytes. -/
theorem size_blank (s : SignedTransaction) : s.blank.size = s.size := by
  have hsize : ∀ s : SignedTransaction,
      s.size = (encode s.transaction).length + (8 + s.unlocks.length * 6 + s.signatureCount * 106) := by
    intro s
    have hencode : encode s = encode s.transaction ++ encode s.unlocks := rfl
    rw [size, hencode, List.length_append, length_encode_unlocks, signatureCount]
  rw [hsize, hsize, signatureCount_blank, blank, List.length_map]

/-- **What is counted of a transaction is the same with blank signatures.** -/
theorem countsOf_blank (s : SignedTransaction) (weights : WorkScoreParameters) :
    weights.countsOf s.blank = weights.countsOf s := by
  rw [WorkScoreParameters.countsOf, size_blank, signatureCount_blank]
  rfl

theorem ofSigned_blank (s : SignedTransaction) (weights : WorkScoreParameters) :
    weights.ofSigned s.blank = weights.ofSigned s := by
  rw [WorkScoreParameters.ofSigned, countsOf_blank, WorkScoreParameters.ofSigned]

/-- Every unlock is outlined by the one with a blank signature. -/
theorem outlines_unlocks (unlocks : List Unlock) :
    List.Forall₂ Unlock.Outlines (unlocks.map (Unlock.mapSignature Signature.blank)) unlocks := by
  refine List.forall₂_map_left_iff.mpr (List.forall₂_same.mpr fun unlock _ => ?_)
  cases unlock with
  | signature s => exact .signature s.publicKey s.bytes
  | reference index => exact .reference index
  | account index => exact .account index
  | anchor index => exact .anchor index
  | nft index => exact .nft index

/-- Blank signatures outline the transaction. -/
theorem outlines_blank (s : SignedTransaction) : s.blank.Outlines s := by
  refine ⟨rfl, List.length_map _, rfl, outlines_unlocks s.unlocks, size_blank s, fun block weights => ?_,
    fun block referenceManaCost => ?_⟩
  · simp only [Block.workScore, Payload.workScore, ofSigned_blank]
  · simp only [BlockDraft.cost, BlockDraft.workScore, BlockDraft.block, Block.workScore,
      Payload.workScore, ofSigned_blank]

end SignedTransaction

namespace Draft

variable {ring : KeyRing} {d : Draft}

/-- **Without a message the signatures are left blank**, and nothing else is different. -/
theorem build_placeholder (hsigner : d.signer = ring.signer) :
    d.build .placeholder = (d.build .sign).map SignedTransaction.blank := by
  have hsignatures : ∀ owner,
      Unlocked.signatureOf d.signer (SigningMode.placeholder.message d.finalTransaction) owner
        = (Unlocked.signatureOf d.signer (SigningMode.sign.message d.finalTransaction) owner).map
            Signature.blank := by
    intro owner
    rw [hsigner]
    exact KeyRing.signatureOf_none _ owner
  have hunlocks : unlocksOf d.signer .placeholder d.finalTransaction d.inputs
      = (unlocksOf d.signer .sign d.finalTransaction d.inputs).map
          (List.map (Unlock.mapSignature Signature.blank)) := unlocksOf_mapSignature hsignatures
  unfold build
  cases d.failure with
  | some e => rfl
  | none =>
    dsimp only
    rw [hunlocks]
    cases unlocksOf d.signer .sign d.finalTransaction d.inputs <;> rfl

/-- **Places are filled exactly where signatures can be made.**  Both builds fail alike, and what the one
gives outlines what the other gives. -/
theorem placeholder_outlines_signed (ring : KeyRing) (d : Draft) (hsigner : d.signer = ring.signer) :
    ((∃ p, d.build .placeholder = .ok p) ↔ ∃ s, d.build .sign = .ok s) ∧
    (∀ e, d.build .placeholder = .error e ↔ d.build .sign = .error e) ∧
    ∀ p s, d.build .placeholder = .ok p → d.build .sign = .ok s → p.Outlines s := by
  rw [build_placeholder hsigner]
  cases d.build .sign with
  | error e => exact ⟨⟨nofun, nofun⟩, fun e' => ⟨fun h => h, fun h => h⟩, nofun⟩
  | ok s =>
    refine ⟨⟨fun _ => ⟨s, rfl⟩, fun _ => ⟨s.blank, rfl⟩⟩, fun e => ⟨nofun, nofun⟩, fun p s' hp hs => ?_⟩
    obtain rfl := Except.ok.inj hp
    obtain rfl := Except.ok.inj hs
    exact s.outlines_blank

end Draft

/-- In place of the signature of the draft's key stand the key and zeros, and the reference is the same. -/
theorem placeholder_outlines_signed_sample :
    sampleSharedDraft.signer = sampleRing.signer ∧
      ∃ p s contents, sampleSharedDraft.build .placeholder = .ok p ∧
        sampleSharedDraft.build .sign = .ok s ∧
        s.unlocks = [.signature ⟨samplePair.publicKey, contents⟩, .reference 0] ∧
        p.unlocks = [.signature ⟨samplePair.publicKey, .zero 64⟩, .reference 0] ∧ p.Outlines s := by
  obtain ⟨hplaces, -, houtlines⟩ :=
    Draft.placeholder_outlines_signed sampleRing sampleSharedDraft rfl
  obtain ⟨contents, hs⟩ := build_sampleSharedDraft
  obtain ⟨p, hp⟩ := hplaces.mpr ⟨_, hs⟩
  have hentries := houtlines p _ hp hs
  exact ⟨rfl, p, _, contents, hp, hs, rfl, hentries.unlocks, hentries⟩

end ManaWallet
