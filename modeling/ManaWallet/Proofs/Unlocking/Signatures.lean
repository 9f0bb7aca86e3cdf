import ManaWallet.Proofs.Unlocking.Acceptance
import Mathlib.Data.List.Forall2

/-!
# Proofs/Unlocking/Signatures — where the signatures in unlocks come from

    owner of the first input of a key ──signatureOf──▸ signature ──as it is──▸ unlock

The pass does nothing with signatures but hand them on.  So the signature in an unlock is the signer's for
the owner of that input (`signedFor_unlocksOf`); and a signer whose signatures are others, made from the
same ones by a function, gives unlocks made from the same ones by it (`unlocksOf_mapSignature`).
-/

namespace ManaWallet

/-- An unlock whose signature, if it has one, is the signer's for the owner of the input. -/
def SignedFor (signer : Signer) (message : Option (List UInt8)) (input : Input) (unlock : Unlock) : Prop :=
  ∀ s, unlock = .signature s → Unlocked.signatureOf signer message input.owner.unrestricted = .ok s

/-- The unlock with another signature made from its own. -/
def Unlock.mapSignature (f : Signature → Signature) : Unlock → Unlock
  | signature s => .signature (f s)
  | unlock => unlock

namespace Unlocked

variable {signer : Signer} {message message' : Option (List UInt8)} {index : ℕ} {input : Input}
  {u u' : Unlocked} {earlier rest : List Input}

/-- Where a chain was unlocked, nothing is signed. -/
theorem chainUnlock?_ne_signature {j : UInt16} {chain : ChainId} {unlock : Unlock} {s : Signature}
    (h : chainUnlock? j chain = some unlock) : unlock ≠ .signature s := by
  rintro rfl
  cases chain <;> exact nomatch h

/-- An owner that a chain unlocks signs nothing. -/
theorem unlockByChain_ne_signature {kind : AddressKind} {chain : ChainId} {unlock : Unlock} {s : Signature}
    (h : u.unlockByChain index kind chain = .ok unlock) : unlock ≠ .signature s := by
  unfold unlockByChain at h
  split at h
  · nomatch h
  · split at h
    · nomatch h
    · next hunlock => exact Except.ok.inj h ▸ chainUnlock?_ne_signature hunlock

/-! ## Where a signature comes from -/

/-- The signature of an owner that a key unlocks. -/
theorem signedFor_unlockByKey {unlock : Unlock} {signers : Std.HashMap SignerUid UInt16}
    (h : u.unlockByKey signer message index input.owner.unrestricted = .ok (unlock, signers)) :
    SignedFor signer message input unlock := by
  rintro s rfl
  obtain ⟨uid, -, h⟩ := bind_eq_ok_iff.mp h
  cases hfound : u.signers[uid]? with
  | some j =>
    simp only [hfound] at h
    exact nomatch (Prod.mk.inj (pure_eq_ok_iff.mp h)).1
  | none =>
    simp only [hfound] at h
    obtain ⟨found, hsignature, h⟩ := bind_eq_ok_iff.mp h
    obtain rfl := Unlock.signature.inj (Prod.mk.inj (pure_eq_ok_iff.mp h)).1
    exact hsignature

/-- **One unlock**: its signature is the owner's. -/
theorem signedFor_unlock {unlock : Unlock} {signers : Std.HashMap SignerUid UInt16}
    (h : u.unlock signer message index input.owner.unrestricted = .ok (unlock, signers)) :
    SignedFor signer message input unlock := by
  unfold Unlocked.unlock at h
  split at h
  · obtain ⟨found, hfound, heq⟩ := map_eq_ok_iff.mp h
    obtain ⟨rfl, -⟩ := Prod.mk.inj heq
    exact fun s hs => absurd hs (unlockByChain_ne_signature hfound)
  · split at h
    · exact signedFor_unlockByKey (mapError_eq_ok_iff.mp h)
    · nomatch h

/-- A run of inputs: the signature of each is its owner's. -/
theorem signedFor_addAll (hu : List.Forall₂ (SignedFor signer message) earlier u.unlocks.reverse)
    (h : addAll signer message index u rest = .ok u') :
    List.Forall₂ (SignedFor signer message) (earlier ++ rest) u'.unlocks.reverse := by
  induction rest generalizing earlier u index with
  | nil =>
    obtain rfl := Except.ok.inj h
    rwa [List.append_nil]
  | cons input rest ih =>
    unfold addAll at h
    split at h
    · nomatch h
    · next mid hmid =>
      obtain ⟨⟨unlock, signers⟩, hunlock, hmid⟩ := bind_eq_ok_iff.mp hmid
      obtain rfl := pure_eq_ok_iff.mp hmid
      rw [List.append_cons]
      refine ih ?_ h
      rw [List.reverse_cons]
      exact List.rel_append hu (.cons (signedFor_unlock hunlock) .nil)

/-! ## What is done to signatures -/

/-- The state with other signatures made from those in it. -/
def mapSignature (f : Signature → Signature) (u : Unlocked) : Unlocked :=
  { u with unlocks := u.unlocks.map (Unlock.mapSignature f) }

section MapSignature

variable {f : Signature → Signature}

/-- An unlock without a signature is left as it is. -/
theorem mapSignature_unlockByChain {kind : AddressKind} {chain : ChainId} :
    (u.unlockByChain index kind chain).map (Unlock.mapSignature f) = u.unlockByChain index kind chain := by
  cases h : u.unlockByChain index kind chain with
  | error e => rfl
  | ok unlock =>
    have hnot : ∀ s, unlock ≠ .signature s := fun s => unlockByChain_ne_signature h
    cases unlock with
    | signature s => exact absurd rfl (hnot s)
    | reference | account | anchor | nft => rfl

variable (hf : ∀ owner, signatureOf signer message' owner = (signatureOf signer message owner).map f)

include hf

/-- An owner that a key unlocks: what is signed for another message is signed alike. -/
theorem unlockByKey_mapSignature (owner : Address) :
    (u.mapSignature f).unlockByKey signer message' index owner
      = (u.unlockByKey signer message index owner).map (Prod.map (Unlock.mapSignature f) id) := by
  have hsigners : (u.mapSignature f).signers = u.signers := rfl
  unfold unlockByKey
  cases signer.uid owner with
  | error e => rfl
  | ok uid =>
    rw [hsigners]
    simp only [bind, Except.bind]
    cases u.signers[uid]? with
    | some earlier => rfl
    | none =>
      rw [hf]
      cases signatureOf signer message owner <;> rfl

/-- **One unlock** is made from what the other message would give. -/
theorem unlock_mapSignature (owner : Address) :
    (u.mapSignature f).unlock signer message' index owner
      = (u.unlock signer message index owner).map (Prod.map (Unlock.mapSignature f) id) := by
  unfold Unlocked.unlock
  cases owner.chainId? with
  | some chain =>
    have hchain : (u.mapSignature f).unlockByChain index owner.kind chain
        = (u.unlockByChain index owner.kind chain).map (Unlock.mapSignature f) :=
      mapSignature_unlockByChain.symm
    dsimp only
    rw [hchain]
    cases u.unlockByChain index owner.kind chain <;> rfl
  | none =>
    dsimp only
    split
    · rw [unlockByKey_mapSignature hf]
      cases u.unlockByKey signer message index owner <;> rfl
    · rfl

/-- The next input. -/
theorem add_mapSignature (input : Input) :
    (u.mapSignature f).add signer message' index input
      = (u.add signer message index input).map (mapSignature f) := by
  unfold add
  rw [unlock_mapSignature hf]
  cases u.unlock signer message index input.owner.unrestricted <;> rfl

/-- A run of inputs ends at the same input, or gives the same unlocks but for the signatures. -/
theorem addAll_mapSignature :
    addAll signer message' index (u.mapSignature f) rest
      = (addAll signer message index u rest).map (mapSignature f) := by
  induction rest generalizing u index with
  | nil => rfl
  | cons input rest ih =>
    unfold addAll
    rw [add_mapSignature hf]
    cases u.add signer message index input with
    | error e => rfl
    | ok mid => exact ih

end MapSignature

end Unlocked

/-! ## The pass -/

section Pass

variable {signer : Signer} {mode mode' : SigningMode} {t t' : Transaction} {inputs : List Input}
  {unlocks : List Unlock}

/-- The pass over few enough inputs is a run over them. -/
theorem unlocksOf_eq (hfew : inputs.length ≤ UInt16.size) :
    unlocksOf signer mode t inputs
      = (Unlocked.addAll signer (mode.message t) 0 {} inputs).map fun u => u.unlocks.reverse := by
  unfold unlocksOf
  rw [if_neg (Nat.not_lt.mpr hfew)]
  cases mode <;> rfl

/-- **The signatures in unlocks are the signer's**, each for the owner of its input. -/
theorem signedFor_unlocksOf (h : unlocksOf signer mode t inputs = .ok unlocks) :
    List.Forall₂ (SignedFor signer (mode.message t)) inputs unlocks := by
  rw [unlocksOf_eq (resolves_of_unlocksOf h).1] at h
  obtain ⟨u, hrun, rfl⟩ := map_eq_ok_iff.mp h
  have hstart : List.Forall₂ (SignedFor signer (mode.message t)) [] ({} : Unlocked).unlocks.reverse := .nil
  exact Unlocked.signedFor_addAll hstart hrun

/-- The signature of one input. -/
theorem signature_of_unlocksOf {i : ℕ} {s : Signature} (h : unlocksOf signer mode t inputs = .ok unlocks)
    (hunlock : unlocks[i]? = some (.signature s)) : ∃ input, inputs[i]? = some input ∧
      Unlocked.signatureOf signer (mode.message t) input.owner.unrestricted = .ok s := by
  have hall := signedFor_unlocksOf h
  obtain ⟨hlt, heq⟩ := List.getElem?_eq_some_iff.mp hunlock
  have hlt' : i < inputs.length := hall.length_eq ▸ hlt
  exact ⟨inputs[i], List.getElem?_eq_getElem hlt', hall.get hlt' hlt s heq⟩

/-- **What is done to the signatures is done to the unlocks**, and nothing else, whether there are unlocks
or an obstacle. -/
theorem unlocksOf_mapSignature {f : Signature → Signature}
    (hf : ∀ owner, Unlocked.signatureOf signer (mode'.message t') owner
      = (Unlocked.signatureOf signer (mode.message t) owner).map f) :
    unlocksOf signer mode' t' inputs
      = (unlocksOf signer mode t inputs).map (List.map (Unlock.mapSignature f)) := by
  rcases Nat.lt_or_ge UInt16.size inputs.length with hmany | hfew
  · unfold unlocksOf
    rw [if_pos hmany, if_pos hmany]
    rfl
  · have hrun : Unlocked.addAll signer (mode'.message t') 0 (Unlocked.mapSignature f {}) inputs
        = (Unlocked.addAll signer (mode.message t) 0 {} inputs).map (Unlocked.mapSignature f) :=
      Unlocked.addAll_mapSignature hf
    have hempty : Unlocked.mapSignature f {} = {} := rfl
    rw [hempty] at hrun
    rw [unlocksOf_eq hfew, unlocksOf_eq hfew, hrun]
    cases Unlocked.addAll signer (mode.message t) 0 {} inputs with
    | error e => rfl
    | ok u => exact congrArg Except.ok List.map_reverse.symm

end Pass

/-! ## Key rings -/

namespace KeyRing

variable {ring : KeyRing} {owner : Address}

/-- A key ring tells owners apart by their keys. -/
theorem uid_eq_ok_iff {uid : SignerUid} :
    ring.signer.uid owner = .ok uid ↔ owner.keyHash? = some ⟨uid.bytes⟩ := by
  have huid : ring.signer.uid owner = (keyHash owner).map fun key => ⟨key.bytes⟩ := rfl
  rw [huid, keyHash]
  cases owner.keyHash? with
  | none => exact ⟨nofun, nofun⟩
  | some key =>
    refine ⟨fun h => ?_, fun h => ?_⟩
    · obtain rfl := Except.ok.inj h
      rfl
    · obtain rfl := Option.some.inj h
      rfl

/-- **The pair that unlocks an owner** is one that the ring holds, and its public key is the one that the
owner is addressed by. -/
theorem pairFor_eq_ok {pair : Ed25519.KeyPair} (h : ring.pairFor owner = .ok pair) :
    owner.keyHash? = some (.ofPublicKey pair.publicKey) ∧ ∃ key : KeyHash, ring.keys[key]? = some pair := by
  obtain ⟨key, hkey, h⟩ := bind_eq_ok_iff.mp h
  cases hheld : ring.keys[key]? with
  | none =>
    rw [hheld] at h
    nomatch h
  | some found =>
    rw [hheld] at h
    obtain rfl := pure_eq_ok_iff.mp h
    refine ⟨?_, key, hheld⟩
    rw [ring.keyed key found hheld]
    unfold keyHash at hkey
    split at hkey
    · next hash hhash => exact Except.ok.inj hkey ▸ hhash
    · nomatch hkey

/-- A key ring fills a place with what it would sign, without its contents. -/
theorem signatureOf_none (message : List UInt8) (owner : Address) :
    Unlocked.signatureOf ring.signer none owner
      = (Unlocked.signatureOf ring.signer (some message) owner).map
          fun s => ⟨s.publicKey, .zero 64⟩ := by
  have hnone : Unlocked.signatureOf ring.signer none owner
      = (ring.pairFor owner).map fun pair => ⟨pair.publicKey, .zero 64⟩ := rfl
  have hsome : Unlocked.signatureOf ring.signer (some message) owner
      = (ring.pairFor owner).map fun pair => ⟨pair.publicKey, pair.sign message⟩ := rfl
  rw [hnone, hsome]
  cases ring.pairFor owner <;> rfl

end KeyRing

end ManaWallet
