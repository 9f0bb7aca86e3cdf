import ManaWallet.Proofs.Unlocking.Soundness

/-!
# Proofs/Unlocking/Acceptance — which inputs are unlocked, and what the first other one is refused for

    chain carried by an earlier input ──┐
    key of an earlier input ────────────┼──▸ unlocked
    key whose signature can be had ─────┘
    anything else ──────────────────────────▸ refused, and with it the transaction

Whether an input can be unlocked depends on the inputs before it and on what the signer answers
(`Signer.Answers`), and not on what the two maps hold (`Unlockable`).  The pass goes through if every input
can be; otherwise it ends at the first that cannot, with the reason that its owner gives (`addAll_spec`,
`unlocksOf_spec`).
-/

namespace ManaWallet

/-- What is to be signed: the transaction, or nothing where only places are filled. -/
def SigningMode.message (mode : SigningMode) (t : Transaction) : Option (List UInt8) :=
  match mode with
  | .sign => some t.signingMessage.toList
  | .placeholder => none

/-! ## Acceptance -/

/-- What a signer answers for an owner: its signature of the message, and without a message what fills the
place of the signature. -/
inductive Signer.Answers (signer : Signer) (owner : Address) :
    Option (List UInt8) → Except SignerError Signature → Prop where
  | sign (message : List UInt8) : Answers signer owner (some message) (signer.sign owner message)
  | placeholder : Answers signer owner none (signer.placeholder owner)

/-- The pass takes the signer's answer. -/
theorem Signer.answers_iff {signer : Signer} {owner : Address} {message : Option (List UInt8)}
    {answer : Except SignerError Signature} :
    signer.Answers owner message answer ↔ Unlocked.signatureOf signer message owner = answer := by
  constructor
  · rintro (message | _)
    · rfl
    · rfl
  · rintro rfl
    cases message with
    | some message => exact .sign message
    | none => exact .placeholder

/-- An input that can be unlocked behind earlier ones. -/
inductive Unlockable (signer : Signer) (message : Option (List UInt8)) (earlier : List Input)
    (input : Input) : Prop where
  /-- An earlier input carries the chain that is the owner. -/
  | chain {chain : ChainId} (howner : input.owner.unrestricted.chainId? = some chain)
      (hcarried : ∃ i ∈ earlier, i.chain? = some chain)
  /-- The key that is the owner signs for an earlier input. -/
  | shared {uid : SignerUid} (hkey : input.signerUid? signer = some uid)
      (hshared : ∃ i ∈ earlier, i.signerUid? signer = some uid)
  /-- The signature of the key that is the owner can be had. -/
  | signature {uid : SignerUid} {s : Signature} (hkey : input.signerUid? signer = some uid)
      (hs : signer.Answers input.owner.unrestricted message (.ok s))

/-- What an input that cannot be unlocked is refused for. -/
inductive RefusedFor (signer : Signer) (message : Option (List UInt8)) (index : ℕ) (input : Input) :
    DraftError → Prop where
  | chain {chain : ChainId} (howner : input.owner.unrestricted.chainId? = some chain) :
      RefusedFor signer message index input (.chainNotUnlocked index chain)
  /-- The signer does not know the owner. -/
  | unknown {e : SignerError} (hsigned : input.owner.unrestricted.isSigned)
      (huid : signer.uid input.owner.unrestricted = .error e) :
      RefusedFor signer message index input (.signer e)
  /-- The signer knows the owner and does not sign. -/
  | unsigned {uid : SignerUid} {e : SignerError} (hkey : input.signerUid? signer = some uid)
      (hs : signer.Answers input.owner.unrestricted message (.error e)) :
      RefusedFor signer message index input (.signer e)
  | unsupported (hchain : input.owner.unrestricted.chainId? = none)
      (hsigned : input.owner.unrestricted.isSigned = false) :
      RefusedFor signer message index input
        (.unsupportedAddress index input.owner.unrestricted.kind)

/-- Inputs each of which can be unlocked behind those before it. -/
def AllUnlockable (signer : Signer) (message : Option (List UInt8)) (inputs : List Input) : Prop :=
  ∀ (i : ℕ) (input : Input), inputs[i]? = some input →
    Unlockable signer message (inputs.take i) input

/-- The first input that cannot be unlocked, and what it is refused for. -/
def FirstObstacle (signer : Signer) (message : Option (List UInt8)) (inputs : List Input)
    (e : DraftError) : Prop :=
  ∃ earlier input rest, inputs = earlier ++ input :: rest ∧ AllUnlockable signer message earlier ∧
    ¬ Unlockable signer message earlier input ∧
    RefusedFor signer message earlier.length input e

/-- An owner that a signature unlocks is no chain. -/
theorem Address.chainId?_of_isSigned {owner : Address} (h : owner.isSigned) : owner.chainId? = none := by
  cases owner with
  | ed25519 | implicitAccountCreation => rfl
  | account | nft | anchor | multi | restricted => exact nomatch h

section Acceptance

variable {signer : Signer} {message : Option (List UInt8)} {earlier rest inputs : List Input}
  {input : Input} {e : DraftError} {i : ℕ}

theorem allUnlockable_nil : AllUnlockable signer message [] := fun _ _ h => nomatch h

/-- One more input that can be unlocked behind the others. -/
theorem AllUnlockable.concat (h : AllUnlockable signer message earlier)
    (hinput : Unlockable signer message earlier input) :
    AllUnlockable signer message (earlier ++ [input]) := by
  intro i x hx
  rcases Nat.lt_or_ge i earlier.length with hlt | hge
  · rw [List.getElem?_append_left hlt] at hx
    rw [List.take_append_of_le_length (Nat.le_of_lt hlt)]
    exact h i x hx
  · rw [List.getElem?_append_right hge, List.getElem?_singleton] at hx
    split at hx
    · next hzero =>
      obtain rfl : input = x := Option.some.inj hx
      obtain rfl : i = earlier.length := by omega
      rwa [List.take_left']
      rfl
    · exact nomatch hx

/-- An owner that is a chain is refused for the chain. -/
theorem RefusedFor.of_chain {chain : ChainId} (h : RefusedFor signer message i input e)
    (howner : input.owner.unrestricted.chainId? = some chain) : e = .chainNotUnlocked i chain := by
  have hkey : input.signerUid? signer = none := Unlocked.signerUid?_of_chainId? howner
  cases h with
  | chain howner' => rw [Option.some.inj (howner'.symm.trans howner)]
  | unknown hsigned => exact nomatch howner.symm.trans (Address.chainId?_of_isSigned hsigned)
  | unsigned hkey' => exact nomatch hkey.symm.trans hkey'
  | unsupported hnone => exact nomatch howner.symm.trans hnone

/-- The first obstacle stands in the way of unlocking all inputs. -/
theorem FirstObstacle.not_all (h : FirstObstacle signer message inputs e) :
    ¬ AllUnlockable signer message inputs := by
  obtain ⟨earlier, input, rest, rfl, -, hnot, -⟩ := h
  intro hall
  have hlast := hall earlier.length input (by simp)
  rw [List.take_left' rfl] at hlast
  exact hnot hlast

/-- **The first obstacle is the least input that cannot be unlocked.** -/
theorem FirstObstacle.refusedFor (h : FirstObstacle signer message inputs e)
    (hinput : inputs[i]? = some input) (hnot : ¬ Unlockable signer message (inputs.take i) input)
    (hbefore : ∀ j x, j < i → inputs[j]? = some x → Unlockable signer message (inputs.take j) x) :
    RefusedFor signer message i input e := by
  obtain ⟨earlier, found, rest, rfl, hall, hfound, hrefused⟩ := h
  have htake : (earlier ++ found :: rest).take earlier.length = earlier := List.take_left' rfl
  rcases Nat.lt_trichotomy i earlier.length with hlt | rfl | hgt
  · -- an input before the obstacle can be unlocked
    rw [List.getElem?_append_left hlt] at hinput
    rw [List.take_append_of_le_length (Nat.le_of_lt hlt)] at hnot
    exact absurd (hall i input hinput) hnot
  · obtain rfl : found = input := by simpa using hinput
    exact hrefused
  · -- the obstacle stands before an input behind it
    have hearlier := hbefore earlier.length found hgt (by simp)
    rw [htake] at hearlier
    exact absurd hearlier hfound

end Acceptance

/-! ## The maps -/

/-- A name has a first input exactly if some input has it. -/
theorem Input.first_ne_none_iff {κ : Type} [DecidableEq κ] {name : Input → Option κ}
    {inputs : List Input} {k : κ} :
    Input.first name inputs k ≠ none ↔ ∃ i ∈ inputs, name i = some k := by
  simp [Input.first, List.findIdx?_eq_none_iff]

namespace Unlocked

variable {signer : Signer} {message : Option (List UInt8)} {earlier rest : List Input}
  {input : Input} {u u' : Unlocked} {e : DraftError} {uid : SignerUid} {chain : ChainId}

/-- A key is held exactly if it signs for an earlier input. -/
theorem Tracks.signers_eq_none_iff (h : Tracks signer earlier u) (uid : SignerUid) :
    u.signers[uid]? = none ↔ ¬ ∃ i ∈ earlier, i.signerUid? signer = some uid := by
  rw [← Input.first_ne_none_iff, not_not, ← h.signers uid, Option.map_eq_none_iff]

/-- A chain that owns outputs is held exactly if an earlier input carries it. -/
theorem Tracks.chains_eq_none_iff (h : Tracks signer earlier u) (ha : chain.isAddressable) :
    u.chains[chain]? = none ↔ ¬ ∃ i ∈ earlier, i.chain? = some chain := by
  rw [← Input.first_ne_none_iff, not_not, ← h.chains chain ha, Option.map_eq_none_iff]

/-! ## One input -/

/-- Every chain that can own outputs has an unlock of its kind. -/
theorem exists_chainUnlock? (j : UInt16) (ha : chain.isAddressable) :
    ∃ unlock, chainUnlock? j chain = some unlock := by
  cases chain with
  | account | anchor | nft => exact ⟨_, rfl⟩
  | foundry | delegation => exact nomatch ha

/-- A result that an input has exactly if it can be unlocked, and otherwise its reason. -/
def Judges {α : Type} (signer : Signer) (message : Option (List UInt8)) (earlier : List Input)
    (input : Input) (result : Except DraftError α) : Prop :=
  match result with
  | .ok _ => Unlockable signer message earlier input
  | .error e => ¬ Unlockable signer message earlier input ∧
      RefusedFor signer message earlier.length input e

/-- What is made of a result does not change whether there is one. -/
theorem Judges.map {α β : Type} {result : Except DraftError α} (f : α → β)
    (h : Judges signer message earlier input result) :
    Judges signer message earlier input (result.map f) := by
  cases result <;> exact h

/-- An owner that is a chain is unlocked exactly behind an input that carries the chain. -/
theorem judges_unlockByChain (h : Tracks signer earlier u)
    (howner : input.owner.unrestricted.chainId? = some chain) (kind : AddressKind) :
    Judges signer message earlier input (u.unlockByChain earlier.length kind chain) := by
  have ha := isAddressable_of_chainId? howner
  have hcarried := h.chains_eq_none_iff ha
  have hkey : input.signerUid? signer = none := signerUid?_of_chainId? howner
  unfold unlockByChain
  cases hfound : u.chains[chain]? with
  | none =>
    refine ⟨fun hunlockable => ?_, .chain howner⟩
    cases hunlockable with
    | chain howner' hcarried' =>
      obtain rfl := Option.some.inj (howner.symm.trans howner')
      exact hcarried.mp hfound hcarried'
    | shared hkey' | signature hkey' => exact nomatch hkey.symm.trans hkey'
  | some j =>
    obtain ⟨unlock, hunlock⟩ := exists_chainUnlock? j ha
    have hearlier := not_not.mp (mt hcarried.mpr (hfound ▸ Option.some_ne_none j))
    simp only [hunlock]
    exact .chain howner hearlier

/-- An owner that is a key is unlocked exactly if the key signs for an earlier input or its signature
can be had. -/
theorem judges_unlockByKey (h : Tracks signer earlier u)
    (hsigned : input.owner.unrestricted.isSigned) :
    Judges signer message earlier input
      ((u.unlockByKey signer message earlier.length input.owner.unrestricted).mapError .signer) := by
  have hchain := Address.chainId?_of_isSigned hsigned
  unfold unlockByKey
  cases huid : signer.uid input.owner.unrestricted with
  | error e =>
    refine ⟨fun hunlockable => ?_, .unknown hsigned huid⟩
    cases hunlockable with
    | chain howner => exact nomatch hchain.symm.trans howner
    | shared hkey | signature hkey =>
      exact nomatch huid.symm.trans (Input.signerUid?_eq_some_iff.mp hkey).2
  | ok uid =>
    have hkey : input.signerUid? signer = some uid :=
      Input.signerUid?_eq_some_iff.mpr ⟨hsigned, huid⟩
    have hshared := h.signers_eq_none_iff uid
    simp only [bind, Except.bind]
    cases hfound : u.signers[uid]? with
    | some j =>
      exact .shared hkey (not_not.mp (mt hshared.mpr (hfound ▸ Option.some_ne_none j)))
    | none =>
      cases hs : signatureOf signer message input.owner.unrestricted with
      | ok s => exact .signature hkey (Signer.answers_iff.mpr hs)
      | error e =>
        refine ⟨fun hunlockable => ?_, .unsigned hkey (Signer.answers_iff.mpr hs)⟩
        cases hunlockable with
        | chain howner => exact nomatch hchain.symm.trans howner
        | shared hkey' hshared' =>
          obtain rfl := Option.some.inj (hkey.symm.trans hkey')
          exact hshared.mp hfound hshared'
        | signature _ hs' => exact nomatch hs.symm.trans (Signer.answers_iff.mp hs')

/-- **One input has an unlock exactly if it can be unlocked**, and otherwise the reason of its owner. -/
theorem judges_unlock (message : Option (List UInt8)) (input : Input) (h : Tracks signer earlier u) :
    Judges signer message earlier input
      (u.unlock signer message earlier.length input.owner.unrestricted) := by
  unfold Unlocked.unlock
  cases howner : input.owner.unrestricted.chainId? with
  | some chain => exact (judges_unlockByChain h howner _).map _
  | none =>
    simp only
    split
    · next hsigned => exact judges_unlockByKey h hsigned
    · next hnot =>
      have hsigned := Bool.eq_false_of_not_eq_true hnot
      refine ⟨fun hunlockable => ?_, .unsupported howner hsigned⟩
      cases hunlockable with
      | chain howner' => exact nomatch howner.symm.trans howner'
      | shared hkey | signature hkey =>
        exact nomatch hsigned.symm.trans (Input.signerUid?_eq_some_iff.mp hkey).1

/-- The step of an input succeeds exactly if it can be unlocked. -/
theorem judges_add (message : Option (List UInt8)) (input : Input) (h : Tracks signer earlier u) :
    Judges signer message earlier input (u.add signer message earlier.length input) := by
  have hunlock := judges_unlock message input h
  unfold Unlocked.add
  cases hresult : u.unlock signer message earlier.length input.owner.unrestricted with
  | error e => rwa [hresult] at hunlock
  | ok found => rwa [hresult] at hunlock

/-! ## All inputs -/

/-- **A run** succeeds only if every input can be unlocked, and fails at the first that cannot. -/
theorem addAll_spec (h : Tracks signer earlier u)
    (hfew : earlier.length + rest.length ≤ UInt16.size)
    (hearlier : AllUnlockable signer message earlier) :
    match addAll signer message earlier.length u rest with
    | .ok _ => AllUnlockable signer message (earlier ++ rest)
    | .error e => FirstObstacle signer message (earlier ++ rest) e := by
  induction rest generalizing earlier u with
  | nil => rwa [addAll, List.append_nil]
  | cons input rest ih =>
    rw [List.length_cons] at hfew
    have hstep := judges_add message input h
    unfold addAll
    cases hadd : u.add signer message earlier.length input with
    | error e =>
      rw [hadd] at hstep
      exact ⟨earlier, input, rest, rfl, hearlier, hstep.1, hstep.2⟩
    | ok mid =>
      rw [hadd] at hstep
      have hlength : (earlier ++ [input]).length = earlier.length + 1 := List.length_append
      have hrest := ih (tracks_add h (by omega) hadd) (by omega) (hearlier.concat hstep)
      rwa [hlength, ← List.append_cons] at hrest

end Unlocked

/-! ## Key rings -/

namespace KeyRing

variable {ring : KeyRing} {message : Option (List UInt8)} {earlier : List Input}
  {input : Input}

/-- A key ring signs wherever it fills places: where it holds the key. -/
theorem exists_answers_iff {owner : Address} :
    (∃ s, ring.signer.Answers owner message (.ok s)) ↔ ∃ pair, ring.pairFor owner = .ok pair := by
  simp only [Signer.answers_iff]
  cases message <;> simp [Unlocked.signatureOf, signer, map_eq_ok_iff]

/-- With a key ring, an input can be unlocked for one message as well as for another. -/
theorem unlockable_of_unlockable (message' : Option (List UInt8))
    (h : Unlockable ring.signer message earlier input) :
    Unlockable ring.signer message' earlier input := by
  cases h with
  | chain howner hcarried => exact .chain howner hcarried
  | shared hkey hshared => exact .shared hkey hshared
  | signature hkey hs =>
    obtain ⟨s, hs'⟩ := exists_answers_iff.mpr (exists_answers_iff.mp ⟨_, hs⟩)
    exact .signature hkey hs'

/-- **A key ring that can fill the places of signatures can sign.** -/
theorem allUnlockable_of_allUnlockable {inputs : List Input} (message' : Option (List UInt8))
    (h : AllUnlockable ring.signer message inputs) : AllUnlockable ring.signer message' inputs :=
  fun i input hinput => unlockable_of_unlockable message' (h i input hinput)

end KeyRing

/-! ## The pass -/

section Pass

variable {signer : Signer} {mode : SigningMode} {t : Transaction} {inputs : List Input}

/-- **The pass over few enough inputs**: it gives unlocks if all of them can be unlocked, and otherwise
the first obstacle. -/
theorem unlocksOf_spec (signer : Signer) (mode : SigningMode) (t : Transaction)
    (hfew : inputs.length ≤ UInt16.size) :
    match unlocksOf signer mode t inputs with
    | .ok _ => AllUnlockable signer (mode.message t) inputs
    | .error e => FirstObstacle signer (mode.message t) inputs e := by
  have hfew' : ([] : List Input).length + inputs.length ≤ UInt16.size := by simpa using hfew
  have hall : AllUnlockable signer (mode.message t) [] := allUnlockable_nil
  have hrun := Unlocked.addAll_spec (Unlocked.tracks_nil signer) hfew' hall
  have hpass : unlocksOf signer mode t inputs
      = (Unlocked.addAll signer (mode.message t) 0 {} inputs).map fun u => u.unlocks.reverse :=
    if_neg (Nat.not_lt.mpr hfew)
  rw [hpass]
  cases hresult : Unlocked.addAll signer (mode.message t) 0 {} inputs with
  | ok u => rwa [List.length_nil, hresult] at hrun
  | error e => rwa [List.length_nil, hresult] at hrun

/-- Few enough inputs are unlocked exactly if each of them can be. -/
theorem exists_unlocksOf_iff (hfew : inputs.length ≤ UInt16.size) :
    (∃ unlocks, unlocksOf signer mode t inputs = .ok unlocks)
      ↔ AllUnlockable signer (mode.message t) inputs := by
  have hspec := unlocksOf_spec signer mode t hfew
  cases hpass : unlocksOf signer mode t inputs with
  | ok unlocks =>
    rw [hpass] at hspec
    exact iff_of_true ⟨unlocks, rfl⟩ hspec
  | error e =>
    rw [hpass] at hspec
    exact iff_of_false nofun hspec.not_all

/-- A pass fails for the number of inputs exactly if there are more than 16 bits number. -/
theorem unlocksOf_eq_tooManyInputs_iff {n : ℕ} :
    unlocksOf signer mode t inputs = .error (.tooManyInputs n)
      ↔ n = inputs.length ∧ UInt16.size < inputs.length := by
  rcases Nat.lt_or_ge UInt16.size inputs.length with hmany | hfew
  · have hpass : unlocksOf signer mode t inputs = .error (.tooManyInputs inputs.length) :=
      if_pos hmany
    simp [hpass, hmany, eq_comm]
  · have hspec := unlocksOf_spec signer mode t hfew
    refine iff_of_false (fun hpass => ?_) (fun h => absurd h.2 (Nat.not_lt.mpr hfew))
    rw [hpass] at hspec
    obtain ⟨_, _, _, -, -, -, hrefused⟩ := hspec
    cases hrefused

/-- **Unlocking accepts exactly the orders in which every input can be unlocked, and otherwise reports
the first that cannot**, with the reason that its owner gives. -/
theorem unlocksOf_accepts_or_refuses (signer : Signer) (mode : SigningMode) (t : Transaction)
    (inputs : List Input) :
    (∀ n, unlocksOf signer mode t inputs = .error (.tooManyInputs n)
      ↔ n = inputs.length ∧ UInt16.size < inputs.length) ∧
    (inputs.length ≤ UInt16.size →
      ((∃ unlocks, unlocksOf signer mode t inputs = .ok unlocks)
        ↔ AllUnlockable signer (mode.message t) inputs) ∧
      ∀ (i : ℕ) (input : Input), inputs[i]? = some input →
        ¬ Unlockable signer (mode.message t) (inputs.take i) input →
        (∀ j x, j < i → inputs[j]? = some x →
          Unlockable signer (mode.message t) (inputs.take j) x) →
        ∃ e, unlocksOf signer mode t inputs = .error e ∧
          RefusedFor signer (mode.message t) i input e) := by
  refine ⟨fun n => unlocksOf_eq_tooManyInputs_iff, fun hfew =>
    ⟨exists_unlocksOf_iff hfew, fun i input hinput hnot hbefore => ?_⟩⟩
  have hspec := unlocksOf_spec signer mode t hfew
  cases hpass : unlocksOf signer mode t inputs with
  | ok unlocks =>
    rw [hpass] at hspec
    exact absurd (hspec i input hinput) hnot
  | error e =>
    rw [hpass] at hspec
    exact ⟨e, rfl, hspec.refusedFor hinput hnot hbefore⟩

end Pass

/-- A keeper whose store is locked: it fills the places of signatures, and signs nothing. -/
def sampleLocked : Signer := { sampleKeeper with sign := fun _ _ => .error (.backend "locked") }

/-- An output of a key, then the output that the new collectible owns, and the collectible behind it. -/
def sampleMisordered : List Input := [heldByKey, heldByCollectible, newCollectible]

/-- The output that the new collectible owns cannot be unlocked before it. -/
theorem not_unlockable_heldByCollectible (message : Option (List UInt8)) :
    ¬ Unlockable sampleKeeper message [heldByKey] heldByCollectible := by
  have hkey : heldByCollectible.signerUid? sampleKeeper = none := rfl
  intro h
  cases h with
  | chain _ hcarried =>
    obtain ⟨x, hx, hchain⟩ := hcarried
    obtain rfl := List.mem_singleton.mp hx
    exact nomatch hchain
  | shared hkey' | signature hkey' => exact nomatch hkey.symm.trans hkey'

/-- With the store locked, the new collectible cannot be unlocked. -/
theorem not_unlockable_newCollectible (message : List UInt8) :
    ¬ Unlockable sampleLocked (some message) [] newCollectible := by
  intro h
  cases h with
  | chain howner => exact nomatch howner
  | shared _ hshared =>
    obtain ⟨x, hx, -⟩ := hshared
    exact absurd hx List.not_mem_nil
  | signature _ hs => exact nomatch Signer.answers_iff.mp hs

/-- The second wallet is accepted.  In the other order the output that the new collectible owns is refused at
its place, because the collectible comes after it; a locked store is reported at the first input; and an
owner behind two restrictions is of an unsupported kind. -/
theorem unlocksOf_accepts_or_refuses_sample :
    AllUnlockable sampleKeeper (SigningMode.sign.message {}) sampleChained ∧
      unlocksOf sampleKeeper .sign {} sampleMisordered
        = .error (.chainNotUnlocked 1 (.nft ⟨blake3 (encode (samplePlace 0))⟩)) ∧
      unlocksOf sampleLocked .sign {} sampleChained = .error (.signer (.backend "locked")) ∧
      unlocksOf sampleKeeper .sign {}
          [⟨samplePlace 0, .basic 1000000 0 firstKey, .restricted (.restricted firstKey .all) .all⟩]
        = .error (.unsupportedAddress 0 .restricted) := by
  obtain ⟨-, haccepts⟩ := unlocksOf_accepts_or_refuses sampleKeeper .sign {} sampleChained
  obtain ⟨hiff, -⟩ := haccepts (by decide)
  obtain ⟨-, hrefuses⟩ := unlocksOf_accepts_or_refuses sampleKeeper .sign {} sampleMisordered
  obtain ⟨-, hobstacle⟩ := hrefuses (by decide)
  obtain ⟨-, hlocks⟩ := unlocksOf_accepts_or_refuses sampleLocked .sign {} sampleChained
  obtain ⟨-, hsilent⟩ := hlocks (by decide)
  have hbefore : ∀ j x, j < 1 → sampleMisordered[j]? = some x →
      Unlockable sampleKeeper (SigningMode.sign.message {}) (sampleMisordered.take j) x := by
    intro j x hj hx
    obtain rfl : j = 0 := Nat.lt_one_iff.mp hj
    obtain rfl : heldByKey = x := Option.some.inj hx
    have hkey : heldByKey.signerUid? sampleKeeper = some ⟨.replicate 32 1⟩ := rfl
    exact .signature hkey (.sign _)
  obtain ⟨e, hpass, hrefused⟩ :=
    hobstacle 1 heldByCollectible rfl (not_unlockable_heldByCollectible _) hbefore
  obtain ⟨e', hpass', hrefused'⟩ := hsilent 0 newCollectible rfl (not_unlockable_newCollectible _)
    fun j _ hj => absurd hj (Nat.not_lt_zero j)
  obtain rfl := hrefused.of_chain rfl
  refine ⟨hiff.mp ⟨_, unlocksOf_sampleChained {}⟩, hpass, hpass'.trans ?_, rfl⟩
  cases hrefused' with
  | chain hchain => exact nomatch hchain
  | unknown _ huid => exact nomatch huid
  | unsigned _ hs => rw [← Except.error.inj (Signer.answers_iff.mp hs)]
  | unsupported _ hsigned => exact nomatch hsigned

end ManaWallet
