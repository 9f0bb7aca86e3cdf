import ManaWallet.Draft.Unlocking
import ManaWallet.Proofs.Result
import Mathlib.Data.Nat.Notation

/-!
# Proofs/Unlocking/Rule — the unlock of an input, said by the inputs before it

    owner's key, not met before ──▸ a signature
    owner's key, met before ──────▸ points to the first input of the key
    owner's chain ────────────────▸ points to the first input of the chain

A chain goes by the name that its output carries, and one that the output opens by the digest of the
output's own name (`Input.chain?`).  The two maps that are built in passing hold the first inputs of keys and
chains (`Tracks`), so every unlock follows a rule that speaks of inputs only (`UnlockedBy`), and a finished
list follows it input by input (`resolves_of_unlocksOf`).
-/

namespace ManaWallet

namespace Input

/-- The name that a chain goes by once the input is consumed: the one that the output carries, and where
that is all zeros the digest of the output's own name. -/
def named {kind : ChainKind} (input : Input) (carried : ChainName kind) : ChainName kind :=
  if carried = ⟨.zero 32⟩ then ⟨blake3 (encode input.outputId)⟩ else carried

/-- The chain of any kind as it goes by once the input is consumed; a foundry has its name from the start. -/
def namedChain (input : Input) : ChainId → ChainId
  | .account carried => .account (input.named carried)
  | .anchor carried => .anchor (input.named carried)
  | .nft carried => .nft (input.named carried)
  | .foundry carried => .foundry carried
  | .delegation carried => .delegation (input.named carried)

/-- The chain that the output belongs to, under the name it goes by once the output is consumed. -/
def chain? (input : Input) : Option ChainId := input.output.chainId?.map input.namedChain

/-- A chain goes by the name that the pass gives it. -/
theorem orOfOutputId_eq_namedChain (input : Input) (chain : ChainId) :
    chain.orOfOutputId input.outputId = input.namedChain chain := by
  cases chain <;> simp only [ChainId.orOfOutputId, ChainName.orOfOutputId_eq, namedChain, named]

/-- The pass enters the chain that the output belongs to, if that can own outputs. -/
theorem chainOf_eq (input : Input) :
    Unlocked.chainOf input = input.chain?.filter ChainId.isAddressable := by
  rw [Unlocked.chainOf, chain?, funext input.orOfOutputId_eq_namedChain]

/-- Who signs for the owner, where a signature unlocks it. -/
def signerUid? (signer : Signer) (input : Input) : Option SignerUid :=
  if input.owner.unrestricted.isSigned then (signer.uid input.owner.unrestricted).toOption else none

/-- Who signs for an input is whom the signer names for its owner, where that is signed for. -/
theorem signerUid?_eq_some_iff {signer : Signer} {input : Input} {uid : SignerUid} :
    input.signerUid? signer = some uid ↔ input.owner.unrestricted.isSigned ∧
      signer.uid input.owner.unrestricted = .ok uid := by
  unfold signerUid?
  split
  · next hsigned =>
    cases signer.uid input.owner.unrestricted <;> simp [hsigned, Except.toOption]
  · next hsigned => simp [hsigned]

/-- The number of the first input that has a name, under one way of naming inputs. -/
def first {κ : Type} [DecidableEq κ] (name : Input → Option κ) (inputs : List Input) (k : κ) :
    Option ℕ :=
  inputs.findIdx? fun input => name input = some k

variable {κ : Type} [DecidableEq κ] {name : Input → Option κ} {inputs : List Input}

/-- A further input is the first only where no earlier one is. -/
theorem first_concat (name : Input → Option κ) (inputs : List Input) (input : Input) (k : κ) :
    first name (inputs ++ [input]) k
      = (first name inputs k).or (if name input = some k then some inputs.length else none) := by
  simp only [first, List.findIdx?_append, List.findIdx?_singleton, decide_eq_true_eq]
  split <;> simp

end Input

/-! ## The rule -/

/-- How an input is unlocked behind earlier ones. -/
inductive UnlockedBy (signer : Signer) (earlier : List Input) (input : Input) : Unlock → Prop where
  | signature {uid : SignerUid} (s : Signature) (hkey : input.signerUid? signer = some uid)
      (hnew : Input.first (Input.signerUid? signer) earlier uid = none) :
      UnlockedBy signer earlier input (.signature s)
  | reference {uid : SignerUid} {j : UInt16} (hkey : input.signerUid? signer = some uid)
      (hfirst : Input.first (Input.signerUid? signer) earlier uid = some j.toNat) :
      UnlockedBy signer earlier input (.reference j)
  | chain {chain : ChainId} {j : UInt16} {unlock : Unlock}
      (hchain : input.owner.unrestricted.chainId? = some chain)
      (hfirst : Input.first Input.chain? earlier chain = some j.toNat)
      (hkind : Unlocked.chainUnlock? j chain = some unlock) :
      UnlockedBy signer earlier input unlock

/-- Unlocks that are, one by one, those of the inputs behind the earlier ones. -/
inductive Resolves (signer : Signer) : List Input → List Unlock → Prop where
  | nil : Resolves signer [] []
  | concat {earlier : List Input} {input : Input} {unlocks : List Unlock} {unlock : Unlock}
      (hearlier : Resolves signer earlier unlocks) (hinput : UnlockedBy signer earlier input unlock) :
      Resolves signer (earlier ++ [input]) (unlocks ++ [unlock])

/-! ## The maps -/

/-- A map that holds the first inputs of some names, in 16 bits without loss. -/
def HoldsFirst {κ : Type} [DecidableEq κ] [Hashable κ] (m : Std.HashMap κ UInt16)
    (name : Input → Option κ) (inputs : List Input) (k : κ) : Prop :=
  (m[k]?).map UInt16.toNat = Input.first name inputs k

namespace HoldsFirst

variable {κ : Type} [DecidableEq κ] [Hashable κ] {m : Std.HashMap κ UInt16}
  {name : Input → Option κ} {earlier : List Input} {input : Input} {k x : κ} {index : UInt16}

theorem nil (name : Input → Option κ) (k : κ) : HoldsFirst ∅ name [] k := by
  simp [HoldsFirst, Input.first]

/-- An input of another name, or behind an earlier one of this name, is not entered. -/
theorem skip (h : HoldsFirst m name earlier k) (hskip : name input = some k → (m[k]?).isSome) :
    HoldsFirst m name (earlier ++ [input]) k := by
  rw [HoldsFirst, Input.first_concat, ← h]
  split
  · next heq =>
    obtain ⟨index, hindex⟩ := Option.isSome_iff_exists.mp (hskip heq)
    rw [hindex]
    rfl
  · rw [Option.or_none]

/-- An input is entered under its name where that is missing. -/
theorem enter (h : HoldsFirst m name earlier x) (hname : name input = some k)
    (hindex : index.toNat = earlier.length) :
    HoldsFirst (m.insertIfNew k index) name (earlier ++ [input]) x := by
  rw [HoldsFirst, Input.first_concat, ← h, hname, Std.HashMap.getElem?_insertIfNew]
  by_cases heq : k = x
  · subst heq
    by_cases hmem : k ∈ m
    · simp [hmem]
    · simp [hmem, hindex]
  · simp [heq]

/-- A name that is missing may as well be inserted. -/
theorem insert (h : HoldsFirst m name earlier x) (hname : name input = some k) (hnew : m[k]? = none)
    (hindex : index.toNat = earlier.length) :
    HoldsFirst (m.insert k index) name (earlier ++ [input]) x := by
  have henter := h.enter hname hindex
  have hmem : k ∉ m := by rw [Std.HashMap.mem_iff_isSome_getElem?, hnew]; exact Bool.false_ne_true
  rw [HoldsFirst, Std.HashMap.getElem?_insertIfNew] at henter
  rw [HoldsFirst, Std.HashMap.getElem?_insert, ← henter]
  simp only [hmem, not_false_eq_true, and_true]

end HoldsFirst

namespace Unlocked

variable {signer : Signer} {message : Option (List UInt8)} {earlier : List Input} {input : Input}
  {u u' : Unlocked}

/-- The state behind some inputs: their unlocks follow the rule, and the maps hold the first inputs of
every key and of every chain that can own outputs. -/
structure Tracks (signer : Signer) (earlier : List Input) (u : Unlocked) : Prop where
  resolves : Resolves signer earlier u.unlocks.reverse
  signers : ∀ uid, HoldsFirst u.signers (Input.signerUid? signer) earlier uid
  chains : ∀ chain, chain.isAddressable → HoldsFirst u.chains Input.chain? earlier chain

theorem tracks_nil (signer : Signer) : Tracks signer [] {} :=
  ⟨.nil, HoldsFirst.nil _, fun chain _ => HoldsFirst.nil _ chain⟩

/-! ## One input -/

/-- An owner that a chain unlocks signs nothing. -/
theorem signerUid?_of_chainId? {chain : ChainId}
    (h : input.owner.unrestricted.chainId? = some chain) : input.signerUid? signer = none := by
  unfold Input.signerUid?
  cases howner : input.owner.unrestricted <;> simp [howner, Address.chainId?, Address.isSigned] at h ⊢

/-- The chains that own outputs can own outputs. -/
theorem isAddressable_of_chainId? {owner : Address} {chain : ChainId}
    (h : owner.chainId? = some chain) : chain.isAddressable := by
  cases owner <;> simp only [Address.chainId?, Option.some.injEq, reduceCtorEq] at h <;> exact h ▸ rfl

/-- An owner that a chain unlocks: the pointer to the first input of the chain. -/
theorem unlockByChain_spec {chain : ChainId} {unlock : Unlock} {index : ℕ} {kind : AddressKind}
    (h : Tracks signer earlier u) (hchain : input.owner.unrestricted.chainId? = some chain)
    (hunlock : u.unlockByChain index kind chain = .ok unlock) :
    UnlockedBy signer earlier input unlock := by
  have hfirst := h.chains chain (isAddressable_of_chainId? hchain)
  unfold unlockByChain at hunlock
  split at hunlock
  · exact nomatch hunlock
  · next j hj =>
    rw [HoldsFirst, hj] at hfirst
    split at hunlock
    · exact nomatch hunlock
    · next found hfound =>
      obtain rfl := Except.ok.inj hunlock
      exact .chain hchain hfirst.symm hfound

/-- An owner that a key unlocks: a signature where the key is new, and otherwise the pointer to its first
input. -/
theorem unlockByKey_spec {unlock : Unlock} {signers : Std.HashMap SignerUid UInt16}
    (h : Tracks signer earlier u) (hfew : earlier.length < UInt16.size)
    (hsigned : input.owner.unrestricted.isSigned)
    (hunlock : u.unlockByKey signer message earlier.length input.owner.unrestricted
      = .ok (unlock, signers)) :
    UnlockedBy signer earlier input unlock ∧
      ∀ uid, HoldsFirst signers (Input.signerUid? signer) (earlier ++ [input]) uid := by
  obtain ⟨uid, huid, hunlock⟩ := bind_eq_ok_iff.mp hunlock
  have hkey : input.signerUid? signer = some uid := Input.signerUid?_eq_some_iff.mpr ⟨hsigned, huid⟩
  have hfirst := h.signers uid
  cases hfound : u.signers[uid]? with
  | some j =>
    simp only [hfound] at hunlock
    obtain ⟨rfl, rfl⟩ := Prod.mk.inj (pure_eq_ok_iff.mp hunlock)
    rw [HoldsFirst, hfound] at hfirst
    refine ⟨.reference hkey hfirst.symm, fun x => (h.signers x).skip fun hx => ?_⟩
    obtain rfl := Option.some.inj (hkey.symm.trans hx)
    exact Option.isSome_of_eq_some hfound
  | none =>
    simp only [hfound] at hunlock
    obtain ⟨s, -, hunlock⟩ := bind_eq_ok_iff.mp hunlock
    obtain ⟨rfl, rfl⟩ := Prod.mk.inj (pure_eq_ok_iff.mp hunlock)
    rw [HoldsFirst, hfound] at hfirst
    exact ⟨.signature s hkey hfirst.symm, fun x =>
      (h.signers x).insert hkey hfound (UInt16.toNat_ofNat_of_lt' hfew)⟩

/-- **The unlock of an input follows the rule**, and the keys are tracked on. -/
theorem unlock_spec {unlock : Unlock} {signers : Std.HashMap SignerUid UInt16}
    (h : Tracks signer earlier u) (hfew : earlier.length < UInt16.size)
    (hunlock : u.unlock signer message earlier.length input.owner.unrestricted
      = .ok (unlock, signers)) :
    UnlockedBy signer earlier input unlock ∧
      ∀ uid, HoldsFirst signers (Input.signerUid? signer) (earlier ++ [input]) uid := by
  unfold Unlocked.unlock at hunlock
  split at hunlock
  · next chain hchain =>
    obtain ⟨_, hfound, heq⟩ := map_eq_ok_iff.mp hunlock
    obtain ⟨rfl, rfl⟩ := Prod.mk.inj heq
    have hkey : input.signerUid? signer = none := signerUid?_of_chainId? hchain
    refine ⟨unlockByChain_spec h hchain hfound, ?_⟩
    intro uid
    exact (h.signers uid).skip fun huid => nomatch hkey.symm.trans huid
  · split at hunlock
    · next hsigned => exact unlockByKey_spec h hfew hsigned (mapError_eq_ok_iff.mp hunlock)
    · exact nomatch hunlock

/-- The chains are tracked on. -/
theorem chains_spec (h : Tracks signer earlier u) (hfew : earlier.length < UInt16.size)
    {chain : ChainId} (ha : chain.isAddressable) :
    HoldsFirst (match chainOf input with
      | some chain => u.chains.insertIfNew chain (.ofNat earlier.length)
      | none => u.chains) Input.chain? (earlier ++ [input]) chain := by
  have hchain := input.chainOf_eq
  split
  · next found hfound =>
    rw [hchain] at hfound
    exact (h.chains chain ha).enter (Option.filter_eq_some_iff.mp hfound).1
      (UInt16.toNat_ofNat_of_lt' hfew)
  · next hnone =>
    refine (h.chains chain ha).skip fun heq => ?_
    rw [hchain, heq, Option.filter_some, if_pos ha] at hnone
    exact nomatch hnone

/-- **One input**: the state behind it tracks it. -/
theorem tracks_add (h : Tracks signer earlier u) (hfew : earlier.length < UInt16.size)
    (hadd : u.add signer message earlier.length input = .ok u') :
    Tracks signer (earlier ++ [input]) u' := by
  obtain ⟨⟨unlock, signers⟩, hunlock, hadd⟩ := bind_eq_ok_iff.mp hadd
  obtain rfl := pure_eq_ok_iff.mp hadd
  obtain ⟨hrule, hsigners⟩ := unlock_spec h hfew hunlock
  refine ⟨?_, hsigners, fun chain ha => chains_spec h hfew ha⟩
  rw [List.reverse_cons]
  exact .concat h.resolves hrule

/-- **A run** tracks all inputs that it has unlocked. -/
theorem tracks_addAll {rest : List Input} (h : Tracks signer earlier u)
    (hfew : earlier.length + rest.length ≤ UInt16.size)
    (hrun : addAll signer message earlier.length u rest = .ok u') :
    Tracks signer (earlier ++ rest) u' := by
  induction rest generalizing earlier u with
  | nil =>
    obtain rfl := Except.ok.inj hrun
    rwa [List.append_nil]
  | cons input rest ih =>
    rw [List.length_cons] at hfew
    unfold addAll at hrun
    split at hrun
    · exact nomatch hrun
    · next mid hmid =>
      have hstep := tracks_add h (by omega) hmid
      have hlength : (earlier ++ [input]).length = earlier.length + 1 := List.length_append
      rw [List.append_cons]
      exact ih hstep (by omega) (hlength ▸ hrun)

end Unlocked

/-- **Unlocks follow the rule**, input by input, and no more inputs are unlocked than 16 bits number. -/
theorem resolves_of_unlocksOf {signer : Signer} {mode : SigningMode} {t : Transaction}
    {inputs : List Input} {unlocks : List Unlock} (h : unlocksOf signer mode t inputs = .ok unlocks) :
    inputs.length ≤ UInt16.size ∧ Resolves signer inputs unlocks := by
  unfold unlocksOf at h
  split at h
  · exact nomatch h
  · next hfew =>
    obtain ⟨u, hrun, rfl⟩ := map_eq_ok_iff.mp h
    have hfew' : inputs.length ≤ UInt16.size := Nat.not_lt.mp hfew
    exact ⟨hfew', (Unlocked.tracks_addAll (Unlocked.tracks_nil signer) (by simpa using hfew')
      hrun).resolves⟩

end ManaWallet
