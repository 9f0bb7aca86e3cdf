import ManaWallet.Proofs.Balance.Worth
import Mathlib.Algebra.GroupWithZero.Nat
import Mathlib.Algebra.Order.BigOperators.Group.Finset

/-!
# Proofs/Balance/Claims — what claims in any order leave of a balance

    claim of an account ──▸ what is bound to it ──what is missing──▸ unbound mana
    free claim ────────────────────────────────────────────────────▸ unbound mana

Outputs and allotments are taken from a balance one by one, each with its own underflow.  All the same
the outcome depends only on what is asked of each account in total (`takeAll_eq_ok_iff`), and so not on
the order (`Leaves.perm`).
-/

namespace ManaWallet

/-- A claim on a balance: mana out of what is bound to an account, or out of the unbound mana only. -/
structure Claim where
  source : Option AccountId
  mana : Mana

namespace Claim

/-- The mana that claims ask of one source. -/
def asked (claims : List Claim) (source : Option AccountId) : ℕ :=
  ((claims.filter fun c => c.source = source).map fun c => c.mana.toNat).sum

theorem asked_nil (source : Option AccountId) : asked [] source = 0 := rfl

theorem asked_append (claims rest : List Claim) (source : Option AccountId) :
    asked (claims ++ rest) source = asked claims source + asked rest source := by
  simp only [asked, List.filter_append, List.map_append, List.sum_append]

theorem asked_singleton (c : Claim) (source : Option AccountId) :
    asked [c] source = if c.source = source then c.mana.toNat else 0 := by
  by_cases h : c.source = source <;> simp [asked, h]

/-- Nothing is asked of a source that no claim names. -/
theorem asked_eq_zero {claims : List Claim} {source : Option AccountId}
    (h : source ∉ claims.map Claim.source) : asked claims source = 0 := by
  have hnil : (claims.filter fun c => c.source = source) = [] := by
    refine List.filter_eq_nil_iff.mpr fun c hc => ?_
    simp only [decide_eq_true_eq]
    exact fun heq => h (heq ▸ List.mem_map_of_mem hc)
  rw [asked, hnil]
  rfl

theorem asked_perm {claims claims' : List Claim} (h : claims.Perm claims') :
    asked claims = asked claims' :=
  funext fun _ => ((h.filter _).map _).sum_eq

/-- **Every claim is made of one source**: the totals add up to all that is claimed. -/
theorem asked_none_add_sum (claims : List Claim) :
    asked claims none + ∑ a, asked claims (some a) = (claims.map fun c => c.mana.toNat).sum := by
  induction claims with
  | nil => simp [asked_nil]
  | cons c rest ih =>
    have hcons : ∀ source, asked (c :: rest) source
        = (if c.source = source then c.mana.toNat else 0) + asked rest source := by
      intro source
      rw [← asked_singleton, ← asked_append, List.singleton_append]
    have hsum : (if c.source = none then c.mana.toNat else 0)
        + ∑ a, (if c.source = some a then c.mana.toNat else 0) = c.mana.toNat := by
      cases c.source with
      | none => simp
      | some account => simp [Finset.sum_ite_eq]
    simp only [hcons, Finset.sum_add_distrib, List.map_cons, List.sum_cons]
    omega

end Claim

namespace Balance

open Claim

/-! ## Taking claims -/

/-- Takes a claim. -/
def take (b : Balance) (c : Claim) : Except ArithmeticError Balance :=
  match c.source with
  | some account => b.takeBound account c.mana
  | none => b.takeUnbound c.mana

/-- Takes claims in order. -/
def takeAll (b : Balance) (claims : List Claim) : Except ArithmeticError Balance :=
  claims.foldlM take b

/-- The unbound mana that claims draw: all that is claimed freely, and what is claimed of an account
beyond what is bound to it. -/
noncomputable def drawn (b : Balance) (claims : List Claim) : ℕ :=
  asked claims none + ∑ a, (asked claims (some a) - (b.boundTo a).toNat)

/-- An entry less an amount; one of which nothing is left is gone. -/
def lessened (mana : Mana) (amount : ℕ) : Option Mana :=
  if amount < mana.toNat then some (.ofNat (mana.toNat - amount)) else none

/-- What claims leave of an account's entry: it stays as it is unless a claim names the account. -/
def entryLeft (claims : List Claim) (account : AccountId) (mana : Mana) : Option Mana :=
  if some account ∈ claims.map Claim.source then lessened mana (asked claims (some account))
  else some mana

/-- What claims leave of a balance, said by totals and not by the order of the claims. -/
structure Leaves (b : Balance) (claims : List Claim) (b' : Balance) : Prop where
  unbound : b'.unbound.toNat + b.drawn claims = b.unbound.toNat
  entry : ∀ a : AccountId, b'.bound[a]? = (b.bound[a]?).bind (entryLeft claims a)
  rest : b' = { b with unbound := b'.unbound, bound := b'.bound }

/-- What is lessened holds the difference, cut off at nothing. -/
theorem toNat_lessened (mana : Mana) (amount : ℕ) :
    ((lessened mana amount).getD 0).toNat = mana.toNat - amount := by
  have hlt := mana.toNat_lt
  unfold lessened
  split
  · rw [Option.getD_some, UInt64.toNat_ofNat']
    omega
  · rw [Option.getD_none, UInt64.toNat_zero]
    omega

/-- An entry that holds more than is taken off keeps the difference. -/
theorem lessened_of_lt {mana amount : Mana} (h : amount < mana) :
    lessened mana amount.toNat = some (mana - amount) := by
  have hlt := mana.toNat_lt
  have hsub := UInt64.toNat_sub_of_le _ _ (UInt64.le_of_lt h)
  rw [lessened, if_pos (UInt64.lt_iff_toNat_lt.mp h), Option.some.injEq, ← UInt64.toNat_inj, hsub,
    UInt64.toNat_ofNat']
  omega

/-- Lessening an entry, in words. -/
theorem bind_lessened (entry : Option Mana) (amount : Mana) :
    entry.bind (lessened · amount.toNat)
      = if amount < entry.getD 0 then some (entry.getD 0 - amount) else none := by
  cases entry with
  | none =>
    have hzero : ¬ amount < 0 := by simp [UInt64.lt_iff_toNat_lt]
    rw [Option.bind_none, Option.getD_none, if_neg hzero]
  | some mana =>
    rw [Option.bind_some, Option.getD_some]
    split
    · next hlt => exact lessened_of_lt hlt
    · next hge => exact if_neg (mt UInt64.lt_iff_toNat_lt.mpr hge)

/-- Amounts may be taken off one after the other. -/
theorem lessened_add (mana : Mana) (amount more : ℕ) :
    lessened mana (amount + more) = (lessened mana amount).bind (lessened · more) := by
  have hlt := mana.toNat_lt
  by_cases h : amount < mana.toNat
  · have hleft : (UInt64.ofNat (mana.toNat - amount)).toNat = mana.toNat - amount := by
      rw [UInt64.toNat_ofNat']
      omega
    have hiff : amount + more < mana.toNat ↔ more < mana.toNat - amount := by omega
    simp only [lessened, h, if_true, Option.bind_some, hleft, hiff, Nat.sub_sub]
  · have hadd : ¬ amount + more < mana.toNat := by omega
    simp only [lessened, h, hadd, if_false, Option.bind_none]

/-- A claimed entry is lessened by all that is claimed of it. -/
theorem entryLeft_of_mem {claims : List Claim} {a : AccountId}
    (h : some a ∈ claims.map Claim.source) :
    entryLeft claims a = fun mana => lessened mana (asked claims (some a)) :=
  funext fun _ => if_pos h

/-- An entry that no claim names stays. -/
theorem entryLeft_of_notMem {claims : List Claim} {a : AccountId}
    (h : some a ∉ claims.map Claim.source) : entryLeft claims a = some :=
  funext fun _ => if_neg h

/-- Claims taken together leave of an entry what they leave one after the other. -/
theorem entryLeft_append (claims rest : List Claim) (a : AccountId) :
    entryLeft (claims ++ rest) a = fun mana => (entryLeft claims a mana).bind (entryLeft rest a) := by
  have happend : some a ∈ (claims ++ rest).map Claim.source
      ↔ some a ∈ claims.map Claim.source ∨ some a ∈ rest.map Claim.source := by
    rw [List.map_append, List.mem_append]
  by_cases hc : some a ∈ claims.map Claim.source <;> by_cases hr : some a ∈ rest.map Claim.source
  · rw [entryLeft_of_mem hc, entryLeft_of_mem hr, entryLeft_of_mem (happend.mpr (Or.inl hc))]
    simp only [asked_append, lessened_add]
  · rw [entryLeft_of_mem hc, entryLeft_of_notMem hr, entryLeft_of_mem (happend.mpr (Or.inl hc))]
    simp only [asked_append, asked_eq_zero hr, Nat.add_zero, Option.bind_fun_some]
  · rw [entryLeft_of_notMem hc, entryLeft_of_mem hr, entryLeft_of_mem (happend.mpr (Or.inr hr))]
    simp only [asked_append, asked_eq_zero hc, Nat.zero_add, Option.bind_some]
  · rw [entryLeft_of_notMem hc, entryLeft_of_notMem hr,
      entryLeft_of_notMem (fun h => (happend.mp h).elim hc hr)]
    rfl

namespace Leaves

variable {b b' b'' : Balance} {claims rest : List Claim}

/-- **An account keeps what is bound to it less what is claimed of it.** -/
theorem boundTo (h : b.Leaves claims b') (a : AccountId) :
    (b'.boundTo a).toNat = (b.boundTo a).toNat - asked claims (some a) := by
  rw [boundTo_eq, boundTo_eq, h.entry a]
  cases b.bound[a]? with
  | none => simp
  | some mana =>
    rw [Option.bind_some, Option.getD_some, entryLeft]
    split
    · exact toNat_lessened mana _
    · next hmem => rw [asked_eq_zero hmem, Option.getD_some, Nat.sub_zero]

/-- Taking nothing leaves everything. -/
theorem nil (b : Balance) : b.Leaves [] b where
  unbound := by simp [drawn, asked_nil]
  entry a := by
    have hsome : entryLeft [] a = some := funext fun _ => rfl
    rw [hsome, Option.bind_fun_some]
  rest := rfl

/-- What further claims draw is counted from what the earlier ones left. -/
theorem drawn_append (h : b.Leaves claims b') :
    b.drawn (claims ++ rest) = b.drawn claims + b'.drawn rest := by
  have hterm : ∀ a, asked (claims ++ rest) (some a) - (b.boundTo a).toNat
      = (asked claims (some a) - (b.boundTo a).toNat)
        + (asked rest (some a) - (b'.boundTo a).toNat) := by
    intro a
    rw [asked_append, h.boundTo a]
    omega
  simp only [drawn, hterm, Finset.sum_add_distrib]
  rw [asked_append]
  omega

/-- Claims may be taken in two parts. -/
theorem append (h : b.Leaves claims b') (h' : b'.Leaves rest b'') :
    b.Leaves (claims ++ rest) b'' where
  unbound := by
    have hunbound := h.unbound
    have hunbound' := h'.unbound
    rw [h.drawn_append]
    omega
  entry a := by
    rw [h'.entry a, h.entry a, entryLeft_append]
    exact Option.bind_assoc _ _ _
  rest := by rw [h'.rest, h.rest]

/-- **What is left is determined by what is claimed.** -/
theorem unique (h : b.Leaves claims b') (h' : b.Leaves claims b'') : b' = b'' := by
  have hunbound : b'.unbound = b''.unbound := by
    have hsum := h.unbound.trans h'.unbound.symm
    exact UInt64.toNat_inj.mp (Nat.add_right_cancel hsum)
  have hbound : b'.bound = b''.bound :=
    Std.ExtTreeMap.ext_getElem? fun a => (h.entry a).trans (h'.entry a).symm
  rw [h.rest, h'.rest, hunbound, hbound]

/-- Permuted claims leave the same. -/
theorem perm (h : b.Leaves claims b') (hperm : claims.Perm rest) : b.Leaves rest b' where
  unbound := by
    have hunbound := h.unbound
    rwa [drawn, asked_perm hperm] at hunbound
  entry a := by
    have hmem : some a ∈ claims.map Claim.source ↔ some a ∈ rest.map Claim.source :=
      (hperm.map _).mem_iff
    have hleft : entryLeft rest a = entryLeft claims a := by
      funext mana
      simp only [entryLeft, hmem, asked_perm hperm]
    rw [hleft, h.entry a]
  rest := h.rest

/-- **No mana is lost**: what is left and what is claimed add up to what there was. -/
theorem worth (h : b.Leaves claims b') :
    b'.worth + (claims.map fun c => c.mana.toNat).sum = b.worth := by
  have hterm : ∀ a, (b'.boundTo a).toNat + asked claims (some a)
      = (b.boundTo a).toNat + (asked claims (some a) - (b.boundTo a).toNat) := by
    intro a
    rw [h.boundTo a]
    omega
  have hsum := Finset.sum_congr (rfl : Finset.univ = Finset.univ) fun a _ => hterm a
  rw [Finset.sum_add_distrib, Finset.sum_add_distrib] at hsum
  have hunbound := h.unbound
  rw [drawn] at hunbound
  rw [← asked_none_add_sum, Balance.worth, Balance.worth]
  omega

end Leaves

/-- Further claims draw no less. -/
theorem drawn_le_append (b : Balance) (claims rest : List Claim) :
    b.drawn claims ≤ b.drawn (claims ++ rest) := by
  have hterm : ∀ source, asked claims source ≤ asked (claims ++ rest) source := by
    intro source
    rw [asked_append]
    exact Nat.le_add_right _ _
  exact Nat.add_le_add (hterm none)
    (Finset.sum_le_sum fun a _ => Nat.sub_le_sub_right (hterm (some a)) _)

/-! ## One claim -/

/-- A claim of an account draws what is missing in it. -/
theorem drawn_of_account (b : Balance) (account : AccountId) (mana : Mana) :
    b.drawn [⟨some account, mana⟩] = mana.toNat - (b.boundTo account).toNat := by
  have hterm : ∀ a, asked [⟨some account, mana⟩] (some a) - (b.boundTo a).toNat
      = if account = a then mana.toNat - (b.boundTo account).toNat else 0 := by
    intro a
    rw [asked_singleton]
    by_cases h : account = a
    · subst h
      simp
    · simp [h]
  simp only [drawn, hterm, Finset.sum_ite_eq, Finset.mem_univ, if_true]
  simp [asked_singleton]

/-- A free claim is drawn in full. -/
theorem drawn_of_free (b : Balance) (mana : Mana) : b.drawn [⟨none, mana⟩] = mana.toNat := by
  simp [drawn, asked_singleton]

/-- Taking unbound mana leaves the difference, where that is not negative. -/
theorem takeUnbound_eq_ok_iff {b b' : Balance} {mana : Mana} :
    b.takeUnbound mana = .ok b' ↔
      ∃ left : Mana, left.toNat + mana.toNat = b.unbound.toNat ∧ { b with unbound := left } = b' := by
  simp only [takeUnbound, bind_eq_ok_iff, checkedSub_eq_ok_iff, pure_eq_ok_iff]

/-- Taking bound mana: the entry is lessened, and what was missing in it is drawn. -/
theorem takeBound_eq_ok_iff {b b' : Balance} {account : AccountId} {mana : Mana} :
    b.takeBound account mana = .ok b' ↔
      ∃ left : Mana, left.toNat + (mana.toNat - (b.boundTo account).toNat) = b.unbound.toNat ∧
        { b with
          unbound := left
          bound := if mana < b.boundTo account then b.bound.insert account (b.boundTo account - mana)
            else b.bound.erase account } = b' := by
  unfold takeBound
  dsimp only
  split
  · next hlt =>
    have hlt' := UInt64.lt_iff_toNat_lt.mp hlt
    have hzero : mana.toNat - (b.boundTo account).toNat = 0 := by omega
    simp only [hzero, Nat.add_zero, UInt64.toNat_inj, Except.ok.injEq, exists_eq_left]
  · next hge =>
    have hle : b.boundTo account ≤ mana := UInt64.not_lt.mp hge
    rw [takeUnbound_eq_ok_iff, UInt64.toNat_sub_of_le _ _ hle]

/-- What a claim of an account leaves of the entries: its own is lessened, the others stay. -/
theorem getElem?_takeBound (b : Balance) (account a : AccountId) (mana : Mana) :
    (if mana < b.boundTo account then b.bound.insert account (b.boundTo account - mana)
      else b.bound.erase account)[a]?
      = if account = a then (b.bound[a]?).bind (lessened · mana.toNat) else b.bound[a]? := by
  by_cases ha : account = a
  · subst ha
    rw [if_pos rfl, bind_lessened, ← b.boundTo_eq account]
    split
    · exact Std.ExtTreeMap.getElem?_insert_self
    · exact Std.ExtTreeMap.getElem?_erase_self
  · have hne : ¬ compare account a = .eq := mt Std.compare_eq_iff_eq.mp ha
    rw [if_neg ha]
    split
    · rw [Std.ExtTreeMap.getElem?_insert, if_neg hne]
    · rw [Std.ExtTreeMap.getElem?_erase, if_neg hne]

/-- **One claim leaves what its totals say.** -/
theorem leaves_of_take {b b' : Balance} {c : Claim} (h : b.take c = .ok b') :
    b.Leaves [c] b' := by
  obtain ⟨source, mana⟩ := c
  cases source with
  | none =>
    obtain ⟨left, hleft, rfl⟩ := takeUnbound_eq_ok_iff.mp h
    refine ⟨by rw [drawn_of_free, hleft], ?_, rfl⟩
    intro a
    rw [entryLeft_of_notMem (by simp), Option.bind_fun_some]
  | some account =>
    obtain ⟨left, hleft, rfl⟩ := takeBound_eq_ok_iff.mp h
    refine ⟨by rw [drawn_of_account, hleft], ?_, rfl⟩
    intro a
    refine (getElem?_takeBound b account a mana).trans ?_
    by_cases ha : account = a
    · subst ha
      rw [if_pos rfl, entryLeft_of_mem (by simp), asked_singleton, if_pos rfl]
    · rw [if_neg ha, entryLeft_of_notMem (by simpa using Ne.symm ha), Option.bind_fun_some]

/-- A claim that draws no more than there is can be taken. -/
theorem exists_take {b : Balance} {c : Claim} (h : b.drawn [c] ≤ b.unbound.toNat) :
    ∃ b', b.take c = .ok b' := by
  obtain ⟨source, mana⟩ := c
  have hfit : ∀ n ≤ b.unbound.toNat, ∃ left : Mana, left.toNat + n = b.unbound.toNat := by
    intro n hn
    have hlt := b.unbound.toNat_lt
    refine ⟨.ofNat (b.unbound.toNat - n), ?_⟩
    rw [UInt64.toNat_ofNat']
    omega
  cases source with
  | none =>
    rw [drawn_of_free] at h
    obtain ⟨left, hleft⟩ := hfit _ h
    exact ⟨_, takeUnbound_eq_ok_iff.mpr ⟨left, hleft, rfl⟩⟩
  | some account =>
    rw [drawn_of_account] at h
    obtain ⟨left, hleft⟩ := hfit _ h
    exact ⟨_, takeBound_eq_ok_iff.mpr ⟨left, hleft, rfl⟩⟩

/-! ## All claims -/

theorem takeAll_cons (b : Balance) (c : Claim) (rest : List Claim) :
    b.takeAll (c :: rest) = b.take c >>= fun b' => b'.takeAll rest := rfl

/-- Claims taken one by one leave what their totals say. -/
theorem leaves_of_takeAll {b b' : Balance} {claims : List Claim}
    (h : b.takeAll claims = .ok b') : b.Leaves claims b' := by
  induction claims generalizing b with
  | nil =>
    obtain rfl := pure_eq_ok_iff.mp h
    exact Leaves.nil b
  | cons c rest ih =>
    rw [takeAll_cons] at h
    obtain ⟨mid, hmid, hrest⟩ := bind_eq_ok_iff.mp h
    exact (leaves_of_take hmid).append (ih hrest)

/-- Claims that draw no more than there is can be taken one by one: each draws a part of it. -/
theorem exists_takeAll {b : Balance} {claims : List Claim}
    (h : b.drawn claims ≤ b.unbound.toNat) : ∃ b', b.takeAll claims = .ok b' := by
  induction claims generalizing b with
  | nil => exact ⟨b, rfl⟩
  | cons c rest ih =>
    have hone : b.drawn [c] ≤ b.drawn ([c] ++ rest) := drawn_le_append b [c] rest
    obtain ⟨mid, hmid⟩ := exists_take (hone.trans h)
    have hleaves := leaves_of_take hmid
    have hsplit : b.drawn (c :: rest) = b.drawn [c] + mid.drawn rest := hleaves.drawn_append
    have hunbound := hleaves.unbound
    obtain ⟨b', hb'⟩ := ih (b := mid) (by omega)
    exact ⟨b', bind_eq_ok_iff.mpr ⟨mid, hmid, hb'⟩⟩

/-- **The closed form of taking claims**: they can be taken one by one exactly if the balance covers
what they draw in total, and then leave what their totals say. -/
theorem takeAll_eq_ok_iff {b b' : Balance} {claims : List Claim} :
    b.takeAll claims = .ok b' ↔ b.Leaves claims b' := by
  refine ⟨leaves_of_takeAll, ?_⟩
  intro h
  obtain ⟨found, hfound⟩ := exists_takeAll (h.unbound ▸ Nat.le_add_left _ _)
  rw [hfound, h.unique (leaves_of_takeAll hfound)]

end Balance

end ManaWallet
