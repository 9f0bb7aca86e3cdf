import ManaWallet.Balance
import ManaWallet.Proofs.Result
import Mathlib.Algebra.BigOperators.Group.Finset.Basic
import Mathlib.Algebra.BigOperators.Group.Finset.Piecewise
import Mathlib.Data.Fintype.EquivFin
import Mathlib.Data.Fintype.Pi

/-!
# Proofs/Balance/Worth — all the mana of a balance

A balance is worth its unbound mana and what is bound to any account.  There are finitely many
accounts, so sums run over all of them and need no list of those involved.
-/

namespace ManaWallet

/-! ## Finitely many accounts -/

/-- Byte strings of one length are finitely many: a string is its bytes by place. -/
instance (n : ℕ) : Finite (Bytes n) := by
  have hinj : Function.Injective fun (b : Bytes n) (i : Fin n) => b[i].toBitVec.toFin := by
    intro b c h
    refine Vector.ext fun i hi => ?_
    have hbyte := congrFun h ⟨i, hi⟩
    exact UInt8.toBitVec_inj.mp (BitVec.toFin_inj.mp hbyte)
  exact Finite.of_injective _ hinj

instance (kind : ChainKind) : Finite (ChainName kind) :=
  Finite.of_injective ChainName.bytes fun ⟨_⟩ ⟨_⟩ h => congrArg _ h

noncomputable instance (kind : ChainKind) : Fintype (ChainName kind) := Fintype.ofFinite _

namespace Balance

/-! ## Entries and amounts -/

/-- What is bound to an account is its entry, and nothing without one. -/
theorem boundTo_eq (b : Balance) (account : AccountId) :
    b.boundTo account = (b.bound[account]?).getD 0 :=
  Std.ExtTreeMap.getD_eq_getD_getElem?

/-- Inserting an entry gives one account an amount. -/
theorem boundTo_insert (b : Balance) (account x : AccountId) (mana : Mana) :
    { b with bound := b.bound.insert account mana }.boundTo x
      = if account = x then mana else b.boundTo x := by
  refine Std.ExtTreeMap.getD_insert.trans ?_
  simp only [Std.compare_eq_iff_eq, boundTo]

/-! ## Worth -/

/-- All the mana of a balance, unbound or bound to some account. -/
noncomputable def worth (b : Balance) : ℕ := b.unbound.toNat + ∑ a, (b.boundTo a).toNat

end Balance

end ManaWallet
