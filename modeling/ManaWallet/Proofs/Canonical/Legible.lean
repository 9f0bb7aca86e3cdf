import ManaWallet.Canonical
import Mathlib.Algebra.GroupWithZero.Nat

/-!
# Proofs/Canonical/Legible — a form tells its value, whatever stands behind it

    form of x │ rest        the same bytes, read from the front
    form of y │ rest'  ──▸  x = y and rest = rest'

A record writes nothing between its fields, so a field has to tell where it ends.  What is proved of two
forms at the front of one string (`Tells`) is therefore closed under appending (`Tells.append`): a form is
read field by field.  A list tells its length first, if that is not cut to the 64 bits of the prefix; no
value has an empty form, so it suffices that the string itself is shorter (`tells_counted`).
-/

namespace ManaWallet

open Canonical

/-! ## What bytes tell -/

/-- Two fronts of one string establish a fact, and what stands behind them is the same.  The string has
fewer bytes than the prefix of a list can count. -/
def Tells (front front' : List UInt8) (fact : Prop) : Prop :=
  ∀ ⦃rest rest' : List UInt8⦄, front ++ rest = front' ++ rest' →
    (front ++ rest).length < UInt64.size → fact ∧ rest = rest'

namespace Tells

variable {a a' b b' : List UInt8} {p q : Prop}

/-- What is told has consequences. -/
theorem mono (h : Tells a a' p) (hpq : p → q) : Tells a a' q := by
  intro rest rest' heq hlt
  obtain ⟨hp, hrest⟩ := h heq hlt
  exact ⟨hpq hp, hrest⟩

/-- **Fields are read in order**: what the first tells may be used to read the second. -/
theorem append (h : Tells a a' p) (h' : p → Tells b b' q) : Tells (a ++ b) (a' ++ b') (p ∧ q) := by
  intro rest rest' heq hlt
  rw [List.append_assoc, List.append_assoc] at heq
  rw [List.append_assoc] at hlt
  obtain ⟨hp, hback⟩ := h heq hlt
  have hlt' : (b ++ rest).length < UInt64.size := by
    rw [List.length_append] at hlt
    omega
  obtain ⟨hq, hrest⟩ := h' hp hback hlt'
  exact ⟨⟨hp, hq⟩, hrest⟩

/-- Fronts of one length are the same. -/
theorem of_length (h : a.length = a'.length) : Tells a a' (a = a') :=
  fun _ _ heq _ => List.append_inj heq h

/-- Fronts of different first bytes stand at the front of no common string. -/
theorem of_head {x y : UInt8} (h : a.head? = some x) (h' : a'.head? = some y) (hne : x ≠ y) :
    Tells a a' p := by
  intro rest rest' heq
  have hhead := congrArg List.head? heq
  rw [List.head?_append, List.head?_append, h, h'] at hhead
  exact absurd (Option.some.inj hhead) hne

/-- Behind the number of one alternative stands what that alternative tells. -/
theorem variant {index : ℕ} (h : Tells a a' p) :
    Tells (variant index ++ a) (Canonical.variant index ++ a') p :=
  ((of_length rfl).append fun _ => h).mono And.right

end Tells

/-- A number tells itself, cut to its width. -/
theorem tells_littleEndian (width m n : ℕ) :
    Tells (littleEndian width m) (littleEndian width n)
      (m % (1 <<< (8 * width)) = n % (1 <<< (8 * width))) := by
  have hlength : (littleEndian width m).length = (littleEndian width n).length := by
    rw [length_littleEndian, length_littleEndian]
  refine (Tells.of_length hlength).mono fun heq => ?_
  rw [← ofLittleEndian_littleEndian, ← ofLittleEndian_littleEndian, heq]

/-- A number that fits in its width tells itself. -/
theorem tells_littleEndian_of_lt (width : ℕ) {m n : ℕ} (hm : m < 1 <<< (8 * width))
    (hn : n < 1 <<< (8 * width)) :
    Tells (littleEndian width m) (littleEndian width n) (m = n) := by
  refine (tells_littleEndian width m n).mono fun heq => ?_
  rwa [Nat.mod_eq_of_lt hm, Nat.mod_eq_of_lt hn] at heq

/-- **A list that no byte string of the machine is too short for tells its length**: each of its values
takes a byte at least, so the length is not cut to the width of its prefix. -/
theorem tells_counted {α : Type} {form : List α → List UInt8} {xs ys : List α}
    (hlength : ∀ zs, zs.length ≤ (form zs).length)
    (h : xs.length = ys.length → Tells (form xs) (form ys) (xs = ys)) :
    Tells (lengthPrefix xs.length ++ form xs) (lengthPrefix ys.length ++ form ys) (xs = ys) := by
  intro rest rest' heq hlt
  have hlt' := heq ▸ hlt
  simp only [List.length_append] at hlt hlt'
  have hxs := hlength xs
  have hys := hlength ys
  have hcount : Tells (lengthPrefix xs.length) (lengthPrefix ys.length) (xs.length = ys.length) :=
    tells_littleEndian_of_lt 8 (Nat.lt_of_le_of_lt (by omega) hlt)
      (Nat.lt_of_le_of_lt (by omega) hlt')
  have hwhole := (hcount.append h).mono And.right
  exact hwhole heq (by simpa only [List.length_append] using hlt)

/-! ## Legible values -/

/-- Values whose forms tell them, and of which none has an empty form. -/
class Legible (α : Type) [Canonical α] : Prop where
  tells (x y : α) : Tells (encode x) (encode y) (x = y)
  ne_nil (x : α) : encode x ≠ []

export Legible (tells)

namespace Legible

variable {α : Type} [Canonical α] [Legible α] {x y : α}

/-- **No form opens another**, among forms that a length prefix can count. -/
theorem eq_of_begins (hsize : (encode y).length < UInt64.size) (h : encode x <+: encode y) : x = y := by
  obtain ⟨rest, heq⟩ := h
  have hnil : encode x ++ rest = encode y ++ [] := heq.trans (List.append_nil _).symm
  exact (tells x y hnil (heq ▸ hsize)).1

/-- Values of one form are one value, and no form is a proper part at the front of another. -/
theorem readable (hsize : (encode y).length < UInt64.size) :
    (encode x = encode y → x = y) ∧ (encode x <+: encode y → encode x = encode y) := by
  refine ⟨fun h => eq_of_begins hsize (h ▸ List.prefix_rfl), fun h => ?_⟩
  rw [eq_of_begins hsize h]

/-- A list has at least as many bytes as values. -/
theorem length_le_flatMap (xs : List α) : xs.length ≤ (xs.flatMap encode).length := by
  induction xs with
  | nil => exact Nat.le_refl 0
  | cons x rest ih =>
    have hpos := List.length_pos_iff.mpr (ne_nil x)
    rw [List.flatMap_cons, List.length_append, List.length_cons]
    omega

/-- Values in a row are read one by one, if their number is known. -/
theorem tells_flatMap {xs ys : List α} (h : xs.length = ys.length) :
    Tells (xs.flatMap encode) (ys.flatMap encode) (xs = ys) := by
  induction xs generalizing ys with
  | nil =>
    obtain rfl := List.length_eq_zero_iff.mp h.symm
    exact (Tells.of_length rfl).mono fun _ => rfl
  | cons x xs ih =>
    obtain ⟨y, ys, rfl⟩ := List.exists_cons_of_length_eq_add_one h.symm
    refine ((tells x y).append fun _ => ih (Nat.succ.inj h)).mono ?_
    rintro ⟨rfl, rfl⟩
    rfl

instance : Legible (List α) where
  tells _ _ := tells_counted length_le_flatMap tells_flatMap
  ne_nil _ := List.append_ne_nil_of_left_ne_nil (List.ne_nil_of_length_eq_add_one rfl) _

instance : Legible (Option α) where
  tells x y := by
    cases x <;> cases y
    case none.none => exact (Tells.of_length rfl).mono fun _ => rfl
    case some.some x y =>
      have hone := (Tells.of_length (rfl : [(1 : UInt8)].length = 1)).append fun _ => tells x y
      exact hone.mono fun h => congrArg some h.2
    all_goals exact .of_head rfl rfl (by decide)
  ne_nil x := by cases x <;> exact List.cons_ne_nil _ _

end Legible

/-- A record of two fields is read one after the other. -/
theorem Legible.of_pair {α β γ : Type} [Canonical α] [Canonical β] [Canonical γ] [Legible β] [Legible γ]
    (first : α → β) (second : α → γ) (hform : ∀ x, encode x = encode (first x) ++ encode (second x))
    (heq : ∀ x y, first x = first y ∧ second x = second y → x = y) : Legible α where
  tells x y := by
    rw [hform x, hform y]
    exact ((tells (first x) (first y)).append fun _ => tells (second x) (second y)).mono (heq x y)
  ne_nil x := by
    rw [hform x]
    exact List.append_ne_nil_of_right_ne_nil _ (ne_nil (second x))

/-! ## Words and byte strings -/

instance : Legible UInt8 where
  tells x y := by
    have hone : Tells [x] [y] ([x] = [y]) := .of_length rfl
    exact hone.mono fun h => (List.cons.inj h).1
  ne_nil _ := List.cons_ne_nil _ _

instance : Legible UInt16 where
  tells x y := (tells_littleEndian_of_lt 2 x.toNat_lt y.toNat_lt).mono UInt16.toNat_inj.mp
  ne_nil _ := List.cons_ne_nil _ _

instance : Legible UInt32 where
  tells x y := (tells_littleEndian_of_lt 4 x.toNat_lt y.toNat_lt).mono UInt32.toNat_inj.mp
  ne_nil _ := List.cons_ne_nil _ _

instance : Legible UInt64 where
  tells x y := (tells_littleEndian_of_lt 8 x.toNat_lt y.toNat_lt).mono UInt64.toNat_inj.mp
  ne_nil _ := List.cons_ne_nil _ _

instance (n : ℕ) [NeZero n] : Legible (Bytes n) where
  tells x y := by
    have hlength : x.toList.length = y.toList.length := by
      rw [Vector.length_toList, Vector.length_toList]
    exact (Tells.of_length hlength).mono Vector.toList_inj.mp
  ne_nil x := List.ne_nil_of_length_pos (x.length_toList.symm ▸ Nat.pos_of_neZero n)

end ManaWallet
