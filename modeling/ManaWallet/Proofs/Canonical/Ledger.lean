import ManaWallet.Proofs.Canonical.Legible
import ManaWallet.Proofs.Standard

/-!
# Proofs/Canonical/Ledger — the values of the ledger are legible

    names, addresses ──▸ conditions, bodies ──▸ outputs ──▸ transactions ──▸ with unlocks

Names, digests and signing messages are taken from canonical forms, so two values of one form would be one
to everybody who checks them.  No two are: each form is read field by field, an address through all the
addresses inside it (`Address.tells_toBytes`), and none opens another (`forms_uniquely_readable`).
-/

namespace ManaWallet

open Canonical

/-! ## Names -/

instance : Legible TransactionId :=
  .of_pair TransactionId.hash TransactionId.slot (fun _ => rfl) (by rintro ⟨_, _⟩ ⟨_, _⟩ ⟨rfl, rfl⟩; rfl)

instance : Legible OutputId :=
  .of_pair OutputId.transactionId OutputId.index (fun _ => rfl) (by rintro ⟨_, _⟩ ⟨_, _⟩ ⟨rfl, rfl⟩; rfl)

instance : Legible CommitmentId :=
  .of_pair CommitmentId.hash CommitmentId.slot (fun _ => rfl) (by rintro ⟨_, _⟩ ⟨_, _⟩ ⟨rfl, rfl⟩; rfl)

instance (kind : ChainKind) : Legible (ChainName kind) where
  tells := by
    rintro ⟨bytes⟩ ⟨bytes'⟩
    exact (tells bytes bytes').mono (congrArg ChainName.mk)
  ne_nil name := Legible.ne_nil name.bytes

/-! ## Addresses -/

namespace Address

/-- Weighted addresses take a byte each at least, that of the weight. -/
theorem length_le_membersToBytes (ms : List (Address × UInt8)) :
    ms.length ≤ (membersToBytes ms).length := by
  induction ms with
  | nil => exact Nat.le_refl 0
  | cons m rest ih =>
    obtain ⟨address, weight⟩ := m
    have hweight : (encode weight).length = 1 := rfl
    rw [membersToBytes, memberToBytes, List.length_append, List.length_append, hweight, List.length_cons]
    omega

mutual

/-- **An address tells itself**, however deep addresses stand in it. -/
theorem tells_toBytes : ∀ a b : Address, Tells (toBytes a) (toBytes b) (a = b)
  | ed25519 ⟨bytes⟩, b => by
    cases b with
    | ed25519 keyHash => exact (tells bytes keyHash.bytes).variant.mono (by rintro rfl; rfl)
    | _ => exact .of_head rfl rfl (by decide)
  | account id, b => by
    cases b with
    | account id' => exact (tells id id').variant.mono (congrArg account)
    | _ => exact .of_head rfl rfl (by decide)
  | nft id, b => by
    cases b with
    | nft id' => exact (tells id id').variant.mono (congrArg nft)
    | _ => exact .of_head rfl rfl (by decide)
  | anchor id, b => by
    cases b with
    | anchor id' => exact (tells id id').variant.mono (congrArg anchor)
    | _ => exact .of_head rfl rfl (by decide)
  | implicitAccountCreation ⟨bytes⟩, b => by
    cases b with
    | implicitAccountCreation keyHash =>
      exact (tells bytes keyHash.bytes).variant.mono (by rintro rfl; rfl)
    | _ => exact .of_head rfl rfl (by decide)
  | multi members threshold, b => by
    cases b with
    | multi members' threshold' =>
      have hmembers := tells_counted length_le_membersToBytes (tells_membersToBytes members members')
      refine (hmembers.variant.append fun _ => tells threshold threshold').mono ?_
      rintro ⟨rfl, rfl⟩
      rfl
    | _ => exact .of_head rfl rfl (by decide)
  | restricted address capabilities, b => by
    cases b with
    | restricted address' capabilities' =>
      have haddress := tells_toBytes address address'
      refine (haddress.variant.append fun _ => tells capabilities.bits capabilities'.bits).mono ?_
      rintro ⟨rfl, hbits⟩
      exact congrArg (restricted address) (congrArg AddressCapabilities.mk hbits)
    | _ => exact .of_head rfl rfl (by decide)

/-- Weighted addresses in a row are read one by one. -/
theorem tells_membersToBytes : ∀ ms ms' : List (Address × UInt8), ms.length = ms'.length →
    Tells (membersToBytes ms) (membersToBytes ms') (ms = ms')
  | [], [], _ => (Tells.of_length rfl).mono fun _ => rfl
  | m :: ms, m' :: ms', h => by
    have hrest := tells_membersToBytes ms ms' (Nat.succ.inj h)
    refine ((tells_memberToBytes m m').append fun _ => hrest).mono ?_
    rintro ⟨rfl, rfl⟩
    rfl

/-- A weighted address tells itself. -/
theorem tells_memberToBytes : ∀ m m' : Address × UInt8,
    Tells (memberToBytes m) (memberToBytes m') (m = m')
  | (address, weight), (address', weight') => by
    refine ((tells_toBytes address address').append fun _ => tells weight weight').mono ?_
    rintro ⟨rfl, rfl⟩
    rfl

end

end Address

instance : Legible Address where
  tells := Address.tells_toBytes
  ne_nil address := by cases address <;> exact List.cons_ne_nil _ _

/-! ## Outputs -/

instance : Legible StorageDepositReturn :=
  .of_pair StorageDepositReturn.returnAddress StorageDepositReturn.amount (fun _ => rfl)
    (by rintro ⟨_, _⟩ ⟨_, _⟩ ⟨rfl, rfl⟩; rfl)

instance : Legible Expiration :=
  .of_pair Expiration.returnAddress Expiration.slot (fun _ => rfl) (by rintro ⟨_, _⟩ ⟨_, _⟩ ⟨rfl, rfl⟩; rfl)

instance : Legible UnlockConditions where
  tells c c' := by
    refine ((((((tells c.address c'.address).append
      fun _ => tells c.storageDepositReturn c'.storageDepositReturn).append
      fun _ => tells c.timelock c'.timelock).append
      fun _ => tells c.expiration c'.expiration).append
      fun _ => tells c.stateControllerAddress c'.stateControllerAddress).append
      fun _ => tells c.governorAddress c'.governorAddress).append
      (fun _ => tells c.immutableAccountAddress c'.immutableAccountAddress) |>.mono ?_
    obtain ⟨_, _, _, _, _, _, _⟩ := c
    obtain ⟨_, _, _, _, _, _, _⟩ := c'
    rintro ⟨⟨⟨⟨⟨⟨rfl, rfl⟩, rfl⟩, rfl⟩, rfl⟩, rfl⟩, rfl⟩
    rfl
  ne_nil c := List.append_ne_nil_of_right_ne_nil _ (Legible.ne_nil c.immutableAccountAddress)

/-- A body tells itself among those of its kind; the kind stands in front of the amount. -/
theorem OutputBody.tells_toBytes {b b' : OutputBody} (h : b.kind = b'.kind) :
    Tells b.toBytes b'.toBytes (b = b') := by
  cases b <;> cases b'
  case basic.basic mana mana' => exact (tells mana mana').mono (congrArg basic)
  case account.account mana id counter mana' id' counter' =>
    refine (((tells mana mana').append fun _ => tells id id').append
      fun _ => tells counter counter').mono ?_
    rintro ⟨⟨rfl, rfl⟩, rfl⟩
    rfl
  case anchor.anchor mana id index mana' id' index' =>
    refine (((tells mana mana').append fun _ => tells id id').append
      fun _ => tells index index').mono ?_
    rintro ⟨⟨rfl, rfl⟩, rfl⟩
    rfl
  case foundry.foundry serial tokens serial' tokens' =>
    obtain ⟨minted, melted, maximum⟩ := tokens
    obtain ⟨minted', melted', maximum'⟩ := tokens'
    refine ((((tells serial serial').append fun _ => tells minted minted').append
      fun _ => tells melted melted').append fun _ => tells maximum maximum').mono ?_
    rintro ⟨⟨⟨rfl, rfl⟩, rfl⟩, rfl⟩
    rfl
  case nft.nft mana id mana' id' =>
    refine ((tells mana mana').append fun _ => tells id id').mono ?_
    rintro ⟨rfl, rfl⟩
    rfl
  case delegation.delegation amount id validator start stop amount' id' validator' start' stop' =>
    refine (((((tells amount amount').append fun _ => tells id id').append
      fun _ => tells validator validator').append fun _ => tells start start').append
      fun _ => tells stop stop').mono ?_
    rintro ⟨⟨⟨⟨rfl, rfl⟩, rfl⟩, rfl⟩, rfl⟩
    rfl
  -- bodies of different kinds
  all_goals exact nomatch h

/-- The number of an alternative tells the kind of an output. -/
theorem OutputKind.tells_variant (k k' : OutputKind) :
    Tells (variant k.index) (variant k'.index) (k = k') := by
  have hlt : ∀ k : OutputKind, k.index < 1 <<< (8 * 4) := by
    intro k
    cases k <;> decide
  have hinj : ∀ k k' : OutputKind, k.index = k'.index → k = k' := by
    intro k k' h
    cases k <;> cases k' <;> first | rfl | nomatch h
  exact (tells_littleEndian_of_lt _ (hlt k) (hlt k')).mono (hinj k k')

instance : Legible Output where
  tells o o' := by
    have hhead := (OutputKind.tells_variant o.kind o'.kind).append fun _ => tells o.amount o'.amount
    have hbody := hhead.append fun h => OutputBody.tells_toBytes h.1
    refine (hbody.append fun _ => tells o.conditions o'.conditions).mono ?_
    obtain ⟨_, _, _⟩ := o
    obtain ⟨_, _, _⟩ := o'
    rintro ⟨⟨⟨-, rfl⟩, rfl⟩, rfl⟩
    rfl
  ne_nil o := List.append_ne_nil_of_right_ne_nil _ (Legible.ne_nil o.conditions)

/-! ## Transactions -/

instance : Legible ContextInput where
  tells x y := by
    cases x <;> cases y
    case commitment.commitment id id' =>
      exact (tells id id').variant.mono (congrArg ContextInput.commitment)
    case blockIssuanceCredit.blockIssuanceCredit id id' =>
      exact (tells id id').variant.mono (congrArg ContextInput.blockIssuanceCredit)
    case reward.reward index index' =>
      exact (tells index index').variant.mono (congrArg ContextInput.reward)
    all_goals exact .of_head rfl rfl (by decide)
  ne_nil x := by cases x <;> exact List.cons_ne_nil _ _

instance : Legible TaggedData :=
  .of_pair TaggedData.tag TaggedData.data (fun _ => rfl) (by rintro ⟨_, _⟩ ⟨_, _⟩ ⟨rfl, rfl⟩; rfl)

instance : Legible Allotment :=
  .of_pair Allotment.accountId Allotment.mana (fun _ => rfl) (by rintro ⟨_, _⟩ ⟨_, _⟩ ⟨rfl, rfl⟩; rfl)

instance : Legible Allotments where
  tells := by
    rintro ⟨entries, _⟩ ⟨entries', _⟩
    refine (tells entries entries').mono ?_
    rintro rfl
    rfl
  ne_nil a := Legible.ne_nil a.entries

instance : Legible Transaction where
  tells t t' := by
    refine ((((((((tells t.networkId t'.networkId).append
      fun _ => tells t.creationSlot t'.creationSlot).append
      fun _ => tells t.contextInputs t'.contextInputs).append
      fun _ => tells t.inputs t'.inputs).append
      fun _ => tells t.inputsCommitment t'.inputsCommitment).append
      fun _ => tells t.allotments t'.allotments).append
      fun _ => tells t.capabilities.bits t'.capabilities.bits).append
      fun _ => tells t.payload t'.payload).append
      (fun _ => tells t.outputs t'.outputs) |>.mono ?_
    obtain ⟨_, _, _, _, _, _, ⟨_⟩, _, _⟩ := t
    obtain ⟨_, _, _, _, _, _, ⟨_⟩, _, _⟩ := t'
    rintro ⟨⟨⟨⟨⟨⟨⟨⟨rfl, rfl⟩, rfl⟩, rfl⟩, rfl⟩, rfl⟩, rfl⟩, rfl⟩, rfl⟩
    rfl
  ne_nil t := List.append_ne_nil_of_right_ne_nil _ (Legible.ne_nil t.outputs)

/-! ## Unlocks -/

instance : Legible Signature where
  tells := by
    rintro ⟨key, bytes⟩ ⟨key', bytes'⟩
    refine ((tells key key').variant.append fun _ => tells bytes.toList bytes'.toList).mono ?_
    rintro ⟨rfl, hbytes⟩
    exact congrArg (Signature.mk key) (Vector.toList_inj.mp hbytes)
  ne_nil s := List.append_ne_nil_of_right_ne_nil _ (Legible.ne_nil s.bytes.toList)

instance : Legible Unlock where
  tells x y := by
    cases x <;> cases y
    case signature.signature s s' => exact (tells s s').variant.mono (congrArg Unlock.signature)
    case reference.reference index index' =>
      exact (tells index index').variant.mono (congrArg Unlock.reference)
    case account.account index index' =>
      exact (tells index index').variant.mono (congrArg Unlock.account)
    case anchor.anchor index index' =>
      exact (tells index index').variant.mono (congrArg Unlock.anchor)
    case nft.nft index index' => exact (tells index index').variant.mono (congrArg Unlock.nft)
    all_goals exact .of_head rfl rfl (by decide)
  ne_nil x := by cases x <;> exact List.cons_ne_nil _ _

instance : Legible SignedTransaction :=
  .of_pair SignedTransaction.transaction SignedTransaction.unlocks (fun _ => rfl)
    (by rintro ⟨_, _⟩ ⟨_, _⟩ ⟨rfl, rfl⟩; rfl)

/-! ## Unique readability -/

/-- **Canonical forms are uniquely readable**: transactions of one form are one transaction, and no form of
a transaction opens that of another; likewise with unlocks, and for outputs.  A form that a machine can
hold has fewer bytes than the prefix of a list can count. -/
theorem forms_uniquely_readable :
    (∀ t t' : Transaction, (encode t').length < UInt64.size →
      (encode t = encode t' → t = t') ∧ (encode t <+: encode t' → encode t = encode t')) ∧
    (∀ s s' : SignedTransaction, (encode s').length < UInt64.size →
      (encode s = encode s' → s = s') ∧ (encode s <+: encode s' → encode s = encode s')) ∧
    (∀ o o' : Output, (encode o').length < UInt64.size →
      (encode o = encode o' → o = o') ∧ (encode o <+: encode o' → encode o = encode o')) :=
  ⟨fun _ _ => Legible.readable, fun _ _ => Legible.readable, fun _ _ => Legible.readable⟩

/-- Two of three have to agree: an owner, an account behind a restriction, and two of two inside. -/
def nestedOwner : Address :=
  .multi [(sampleOwner, 1), (.restricted (.account sampleAccount) .all, 1),
    (.multi [(sampleOwner, 1), (.nft .empty, 1)] 2, 1)] 2

/-- A transaction with an output for nested owners. -/
def nestedTransaction (capabilities : AddressCapabilities) : Transaction where
  outputs := [.basic 1000000 0 nestedOwner, .nft 1 2 .empty (.restricted nestedOwner capabilities)]

/-- A restriction inside an address tells apart whatever the address stands in. -/
theorem forms_uniquely_readable_of_nested :
    (encode (nestedTransaction .all)).length < UInt64.size ∧
      ¬ encode (nestedTransaction ⟨0⟩) <+: encode (nestedTransaction .all) ∧
      ¬ encode (SignedTransaction.mk (nestedTransaction ⟨0⟩) [.reference 0])
        <+: encode (SignedTransaction.mk (nestedTransaction .all) [.reference 0]) ∧
      ¬ encode (Output.basic 1 2 (.restricted nestedOwner ⟨0⟩))
        <+: encode (Output.basic 1 2 (.restricted nestedOwner .all)) := by
  obtain ⟨htransactions, hsigned, houtputs⟩ := forms_uniquely_readable
  have hsize : (encode (nestedTransaction .all)).length < UInt64.size := by decide +kernel
  refine ⟨hsize, fun h => ?_, fun h => ?_, fun h => ?_⟩
  · obtain ⟨heq, hbegins⟩ := htransactions _ _ hsize
    exact nomatch heq (hbegins h)
  · obtain ⟨heq, hbegins⟩ := hsigned _ (SignedTransaction.mk (nestedTransaction .all) [.reference 0])
      (by decide +kernel)
    exact nomatch heq (hbegins h)
  · obtain ⟨heq, hbegins⟩ := houtputs _ (Output.basic 1 2 (.restricted nestedOwner .all))
      (by decide +kernel)
    exact nomatch heq (hbegins h)

/-! ## Beyond the count -/

/-- As many zeros as the first number that the prefix of a list cannot hold. -/
def uncountedZeros : List UInt8 := List.replicate UInt64.size 0

theorem encode_replicate_zero (n : ℕ) :
    encode (List.replicate n (0 : UInt8)) = lengthPrefix n ++ List.replicate n 0 := by
  have hencode : encode (List.replicate n (0 : UInt8))
      = lengthPrefix (List.replicate n (0 : UInt8)).length
        ++ (List.replicate n (0 : UInt8)).flatMap List.singleton := rfl
  rw [hencode, List.length_replicate]
  exact congrArg _ (List.flatMap_singleton' _)

/-- **The bound on the size is needed**: a list of `2 ^ 64` bytes has the prefix of an empty one, and its
zeros read as the prefix of the next. -/
theorem forms_clash_beyond_count :
    ∃ t t' : Transaction, t ≠ t' ∧ encode t = encode t' := by
  have hcount : lengthPrefix UInt64.size = List.replicate 8 0 := by decide
  have hempty : lengthPrefix 0 = List.replicate 8 0 := by decide
  have hdata : encode (TaggedData.mk uncountedZeros []) = encode (TaggedData.mk [] uncountedZeros) := by
    have hzeros : encode uncountedZeros = List.replicate 8 0 ++ uncountedZeros :=
      (encode_replicate_zero UInt64.size).trans (hcount ▸ rfl)
    have hnil : encode ([] : List UInt8) = List.replicate 8 0 := (encode_replicate_zero 0).trans hempty
    change encode uncountedZeros ++ encode [] = encode [] ++ encode uncountedZeros
    rw [hzeros, hnil, uncountedZeros]
    simp only [List.replicate_append_replicate, Nat.add_comm]
  refine ⟨{ payload := some ⟨uncountedZeros, []⟩ }, { payload := some ⟨[], uncountedZeros⟩ }, ?_, ?_⟩
  · intro h
    have htag : uncountedZeros = [] := congrArg (fun t => (t.payload.getD {}).tag) h
    have hlength := congrArg List.length htag
    rw [uncountedZeros, List.length_replicate] at hlength
    exact absurd hlength (by decide)
  · have hpayload : encode (some (TaggedData.mk uncountedZeros []))
        = encode (some (TaggedData.mk [] uncountedZeros)) := congrArg (1 :: ·) hdata
    exact congrArg (fun payload => encode (0 : UInt64) ++ encode (0 : SlotIndex)
      ++ encode ([] : List ContextInput) ++ encode ([] : List OutputId) ++ encode (Bytes.zero 32)
      ++ encode ({} : Allotments) ++ encode (0 : UInt8) ++ payload ++ encode ([] : List Output)) hpayload

end ManaWallet
