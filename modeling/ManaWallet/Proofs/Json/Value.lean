import ManaWallet.Json.Value
import ManaWallet.Proofs.Json.Tree
import Mathlib.Data.List.Nodup

/-!
# Proofs/Json/Value — what a value is written for is read from it

Texts, integers and records are written as trees with proper lexemes, and each is read back from its
tree: a text through its escapes (`string?_ofString`), an integer through its digits (`int?_ofInt`), a
record through the names of its fields (`fields?_ofFields`).
-/

namespace ManaWallet.Json

/-! ## Strings -/

/-- A hexadecimal digit stands for its value. -/
theorem hexValue?_hexDigit : ∀ value < 16, hexValue? (hexDigit value) = some value := by decide

/-- The four digits of a character below 256 stand for its number. -/
theorem codeUnit?_hexDigit {n : Nat} (h : n < 256) :
    codeUnit? '0' '0' (hexDigit (n / 16)) (hexDigit (n % 16)) = some n := by
  have hhigh := hexValue?_hexDigit (n / 16) (by omega)
  have hlow := hexValue?_hexDigit (n % 16) (by omega)
  have hzero : hexValue? '0' = some 0 := rfl
  simp only [codeUnit?, hzero, hhigh, hlow, Option.bind_eq_bind, Option.bind_some, Option.pure_def]
  exact congrArg some (by omega)

/-- The ways in which a character is written inside a string: behind a backslash as a letter that stands
for it, behind a backslash in hexadecimal digits, or as it is. -/
inductive EscapedAs (c : Char) : List Char → Prop where
  | letter {l : Char} (h : isEscape l = true) (hl : unescape? l = some c) : EscapedAs c ['\\', l]
  | digits (h : c.toNat < 256) :
      EscapedAs c ['\\', 'u', '0', '0', hexDigit (c.toNat / 16), hexDigit (c.toNat % 16)]
  | plain (hquote : c ≠ '"') (h : ¬(c.toNat < 32 ∨ c = '\\')) : EscapedAs c [c]

/-- Every character is written in one of these ways. -/
theorem escapedAs_escape (c : Char) : EscapedAs c (escape c) := by
  unfold escape
  split_ifs with hquote hslash hb hf hn hr ht hcontrol
  · exact .letter rfl (by rw [hquote]; rfl)
  · exact .letter rfl (by rw [hslash]; rfl)
  · exact .letter rfl (by rw [hb]; rfl)
  · exact .letter rfl (by rw [hf]; rfl)
  · exact .letter rfl (by rw [hn]; rfl)
  · exact .letter rfl (by rw [hr]; rfl)
  · exact .letter rfl (by rw [ht]; rfl)
  · exact .digits (by omega)
  · exact .plain hquote (not_or.mpr ⟨hcontrol, hslash⟩)

/-- A written character belongs to the string that goes on behind it. -/
theorem stringBody?_escapedAs {c : Char} {cs : List Char} (h : EscapedAs c cs) (rest : List Char) :
    stringBody? (cs ++ rest) = (stringBody? rest).map fun (body, rest) => (cs ++ body, rest) := by
  cases h with
  | letter h _ => exact stringBody?_backslash h rest
  | digits h =>
    have hhigh := hexValue?_hexDigit (c.toNat / 16) (by omega)
    have hlow := hexValue?_hexDigit (c.toNat % 16) (by omega)
    exact stringBody?_unicode (by simp [hhigh, hlow]; decide) rest
  | plain hquote h => exact stringBody?_plain hquote h rest

/-- A written character stands for itself. -/
theorem characters?_escapedAs {c : Char} {cs : List Char} (h : EscapedAs c cs) (rest : List Char) :
    characters? (cs ++ rest) = (characters? rest).map (c :: ·) := by
  cases h with
  | @letter l h hl =>
    have hslash : characters? ('\\' :: l :: rest)
        = (unescape? l).bind fun c => (characters? rest).map (c :: ·) := by
      rw [characters?]
      rintro _ _ _ _ _ rfl
      exact absurd h (by decide)
    exact hslash.trans (by rw [hl]; rfl)
  | digits h =>
    have hunit : characters?
          ('\\' :: 'u' :: '0' :: '0' :: hexDigit (c.toNat / 16) :: hexDigit (c.toNat % 16) :: rest)
        = (characters? rest).map (Char.ofNat c.toNat :: ·) := by
      rw [characters?, codeUnit?_hexDigit h, Option.bind_some, if_pos (.inl (by omega))]
    rwa [Char.ofNat_toNat] at hunit
  | plain _ h =>
    have hslash : c ≠ '\\' := fun heq => h (.inr heq)
    rw [List.singleton_append, characters?]
    · exact fun _ _ _ _ _ heq => absurd heq hslash
    · exact fun _ _ heq => absurd heq hslash

/-- Written characters between quotes are a string up to the closing one. -/
theorem proper_flatMap_escape (cs : List Char) : (Token.string (cs.flatMap escape)).Proper := by
  rw [Token.proper_string_iff]
  induction cs with
  | nil => rfl
  | cons c cs ih =>
    rw [List.flatMap_cons, List.append_assoc, stringBody?_escapedAs (escapedAs_escape c), ih]
    rfl

/-- A text between quotes is a string. -/
theorem proper_ofString (s : String) : (ofString s).Proper := .string (proper_flatMap_escape s.toList)

/-- Written characters stand for themselves. -/
theorem characters?_flatMap_escape (cs : List Char) : characters? (cs.flatMap escape) = some cs := by
  induction cs with
  | nil => rfl
  | cons c cs ih =>
    rw [List.flatMap_cons, characters?_escapedAs (escapedAs_escape c), ih]
    rfl

/-- **A text is read back from its string**, whatever characters it has. -/
@[simp] theorem string?_ofString (s : String) : string? (ofString s) = some s := by
  rw [ofString, string?, characters?_flatMap_escape, Option.map_some, String.ofList_toList]

example : (ofString "é\"\n\x1f").text = "\"é\\\"\\n\\u001f\"".toList := by decide

/-! ## Integers -/

/-- Every character of a natural number is a digit. -/
theorem isDigit_of_mem_toDigits {n : Nat} {c : Char} (h : c ∈ Nat.toDigits 10 n) : c.isDigit = true :=
  Nat.isDigit_of_mem_toDigits (by decide) (by decide) h

theorem isDigits_toDigits (n : Nat) : isDigits (Nat.toDigits 10 n) = true := by
  rw [isDigits, Bool.and_eq_true, List.all_eq_true]
  exact ⟨by simp [Nat.toDigits_ne_nil], fun c hmem => isDigit_of_mem_toDigits hmem⟩

/-- The digits of a natural number stand for it. -/
theorem ofDigits_toDigits (n : Nat) : ofDigits (Nat.toDigits 10 n) = n :=
  Nat.ofDigitChars_ten_toDigits

/-- The digits of a positive number start with one that is not zero. -/
theorem exists_toDigits_eq_cons {n : Nat} (h : 0 < n) :
    ∃ c cs, Nat.toDigits 10 n = c :: cs ∧ c ≠ '0' := by
  induction n using Nat.strongRecOn with
  | ind n ih =>
    by_cases hn : n < 10
    · rw [Nat.toDigits_of_lt_base hn]
      refine ⟨n.digitChar, [], rfl, ?_⟩
      exact mt Nat.digitChar_eq_zero.mp (by omega)
    · obtain ⟨c, cs, hdigits, hc⟩ := ih (n / 10) (by omega) (by omega)
      rw [Nat.toDigits_of_base_le (by decide) (by omega), hdigits]
      exact ⟨c, _, rfl, hc⟩

/-- The digits of a natural number have no needless zero at their front. -/
theorem isWhole_toDigits (n : Nat) : isWhole (Nat.toDigits 10 n) = true := by
  rcases Nat.eq_zero_or_pos n with rfl | hpos
  · rfl
  · obtain ⟨c, cs, hdigits, hc⟩ := exists_toDigits_eq_cons hpos
    rw [hdigits, isWhole]
    · exact bne_iff_ne.mpr hc
    · exact fun heq => absurd heq hc

/-- The digits of a natural number are a number without sign, fraction and exponent. -/
theorem isMagnitude_toDigits (n : Nat) : isMagnitude (Nat.toDigits 10 n) = true := by
  have hall : ∀ c ∈ Nat.toDigits 10 n, c.isDigit = true := fun c hmem => isDigit_of_mem_toDigits hmem
  rw [isMagnitude, List.takeWhile_eq_self_iff.mpr hall, List.dropWhile_eq_nil_iff.mpr hall,
    isWhole_toDigits]
  rfl

/-- A natural number starts with no minus sign. -/
theorem toDigits_ne_minus_cons (n : Nat) (cs : List Char) : Nat.toDigits 10 n ≠ '-' :: cs := by
  intro hdigits
  have hminus := isDigit_of_mem_toDigits (hdigits ▸ List.mem_cons_self : '-' ∈ Nat.toDigits 10 n)
  exact absurd hminus (by decide)

theorem isNumeric_of_mem_toDigits {n : Nat} {c : Char} (h : c ∈ Nat.toDigits 10 n) :
    isNumeric c = true := by
  simp [isNumeric, isDigit_of_mem_toDigits h]

/-- A natural number in digits is a number. -/
theorem proper_ofNat (n : Nat) : (ofNat n).Proper := by
  refine .number (Token.proper_number_iff.mpr ⟨fun c hmem => isNumeric_of_mem_toDigits hmem, ?_⟩)
  rw [isNumber]
  · exact isMagnitude_toDigits n
  · exact fun cs => toDigits_ne_minus_cons n cs

/-- An integer in digits is a number, a minus sign included. -/
theorem proper_ofInt : ∀ i : Int, (ofInt i).Proper
  | .ofNat n => proper_ofNat n
  | .negSucc n => by
    refine .number (Token.proper_number_iff.mpr ⟨?_, isMagnitude_toDigits (n + 1)⟩)
    rw [List.forall_mem_cons]
    exact ⟨rfl, fun c hmem => isNumeric_of_mem_toDigits hmem⟩

/-- A natural number is read back from its digits. -/
@[simp] theorem int?_ofNat (n : Nat) : int? (ofNat n) = some (n : Int) := by
  rw [ofNat, int?]
  · rw [if_pos (isDigits_toDigits n), ofDigits_toDigits]
  · exact fun cs => toDigits_ne_minus_cons n cs

/-- **An integer is read back from its digits**, whatever its sign. -/
@[simp] theorem int?_ofInt : ∀ i : Int, int? (ofInt i) = some i
  | .ofNat n => int?_ofNat n
  | .negSucc n => by
    obtain ⟨c, cs, hdigits, hc⟩ := exists_toDigits_eq_cons (Nat.succ_pos n)
    have hzero : Nat.toDigits 10 (n + 1) ≠ ['0'] := by
      intro heq
      exact hc (List.cons.inj (hdigits.symm.trans heq)).1
    rw [ofInt, int?, if_pos ⟨isDigits_toDigits (n + 1), hzero⟩, ofDigits_toDigits]
    rfl

/-- A natural number below the bound is read back. -/
theorem natBelow?_ofNat {bound n : Nat} (h : n < bound) : natBelow? bound (ofNat n) = some n := by
  rw [natBelow?, int?_ofNat, Option.bind_some, if_pos ⟨Int.natCast_nonneg n, Int.ofNat_lt.mpr h⟩]
  rfl

/-- A word is read back from its digits. -/
@[simp] theorem uint8?_ofNat (x : UInt8) : uint8? (ofNat x.toNat) = some x := by
  rw [uint8?, natBelow?_ofNat x.toNat_lt_size, Option.map_some, UInt8.ofNat_toNat]

@[inherit_doc uint8?_ofNat, simp] theorem uint16?_ofNat (x : UInt16) : uint16? (ofNat x.toNat) = some x := by
  rw [uint16?, natBelow?_ofNat x.toNat_lt_size, Option.map_some, UInt16.ofNat_toNat]

@[inherit_doc uint8?_ofNat, simp] theorem uint32?_ofNat (x : UInt32) : uint32? (ofNat x.toNat) = some x := by
  rw [uint32?, natBelow?_ofNat x.toNat_lt_size, Option.map_some, UInt32.ofNat_toNat]

@[inherit_doc uint8?_ofNat, simp] theorem uint64?_ofNat (x : UInt64) : uint64? (ofNat x.toNat) = some x := by
  rw [uint64?, natBelow?_ofNat x.toNat_lt_size, Option.map_some, UInt64.ofNat_toNat]

@[inherit_doc uint8?_ofNat, simp] theorem int64?_ofInt (x : Int64) : int64? (ofInt x.toInt) = some x := by
  rw [int64?, int?_ofInt, Option.bind_some, if_pos ⟨x.minValue_le_toInt, x.toInt_le⟩, Int64.ofInt_toInt]

/-! ## Records -/

/-- Where nothing fails, reading item by item gives the list of what is read. -/
theorem mapM_eq_some_map {α β : Type} {f : α → Option β} {g : α → β} {as : List α}
    (h : ∀ a ∈ as, f a = some (g a)) : as.mapM f = some (as.map g) := by
  induction as with
  | nil => rfl
  | cons a as ih =>
    rw [List.forall_mem_cons] at h
    rw [List.mapM_cons, h.1, ih h.2]
    rfl

/-- Items that are each read back are read back as a list. -/
theorem items?_map {α : Type} {read : Json → Option α} {write : α → Json}
    (h : ∀ a, read (write a) = some a) (as : List α) :
    items? read (.array (as.map write)) = some as := by
  have hread : as.mapM (read ∘ write) = some (as.map id) := mapM_eq_some_map fun a _ => h a
  rw [items?, List.mapM_map, hread, List.map_id]

/-- If no two fields have one name, only the field itself has the name of a field. -/
theorem filter_name_eq_singleton {fields : List (List Char × Json)} (h : (fields.map (·.1)).Nodup)
    {field : List Char × Json} (hmem : field ∈ fields) :
    (fields.filter fun other => other.1 = field.1) = [field] := by
  induction fields with
  | nil => exact nomatch hmem
  | cons first fields ih =>
    obtain ⟨hfirst, hnodup⟩ := List.nodup_cons.mp h
    rcases List.mem_cons.mp hmem with rfl | hmem
    · have hrest : ∀ other ∈ fields, other.1 ≠ field.1 := by
        intro other hother heq
        exact hfirst (List.mem_map.mpr ⟨other, hother, heq⟩)
      simpa [List.filter_eq_nil_iff] using hrest
    · have hne : first.1 ≠ field.1 := by
        intro heq
        exact hfirst (List.mem_map.mpr ⟨field, hmem, heq.symm⟩)
      simpa [hne] using ih hnodup hmem

/-- **The fields of a record are read back by their names**, if no two of them have one name. -/
theorem fields?_ofFields {fields : List (String × Json)} (h : (fields.map (·.1)).Nodup) :
    fields? (fields.map (·.1)) (ofFields fields) = some (fields.map fun field => some field.2) := by
  let named := fields.map fun field => (field.1.toList, field.2)
  have hnamed : ∀ field ∈ fields, (characters? (field.1.toList.flatMap escape)).map (·, field.2)
      = some (field.1.toList, field.2) := by
    intro field _
    rw [characters?_flatMap_escape, Option.map_some]
  have hnodup : (named.map (·.1)).Nodup := by
    have hchars := List.Nodup.map (fun _ _ => String.toList_inj.mp) h
    rwa [List.map_map] at hchars ⊢
  simp only [fields?, ofFields, Option.bind_eq_bind, List.mapM_map]
  refine (congrArg (Option.bind · _) (mapM_eq_some_map hnamed)).trans ?_
  refine mapM_eq_some_map fun field hmem => ?_
  have hfound := filter_name_eq_singleton hnodup (List.mem_map_of_mem hmem)
  dsimp only [named] at hfound
  rw [Function.comp_apply, hfound]

/-- A record with the names and the values of its fields apart is read back value by value. -/
theorem fields?_ofFields_zip {names : List String} {values : List Json} (h : names.Nodup)
    (hlength : names.length = values.length) :
    fields? names (ofFields (names.zip values)) = some (values.map some) := by
  have hnames : (names.zip values).map (·.1) = names := List.map_fst_zip hlength.le
  have hvalues : ((names.zip values).map (·.2)).map some = values.map some :=
    congrArg _ (List.map_snd_zip hlength.ge)
  rw [List.map_map] at hvalues
  have hread := fields?_ofFields (hnames.symm ▸ h)
  rw [hnames] at hread
  exact hread.trans (congrArg some hvalues)

/-- A record of proper values is proper. -/
theorem proper_ofFields_zip {names : List String} {values : List Json}
    (h : ∀ value ∈ values, value.Proper) : (ofFields (names.zip values)).Proper := by
  refine .object ?_ ?_
  · rw [List.forall_mem_map]
    intro field _
    exact proper_flatMap_escape field.1.toList
  · rw [List.forall_mem_map]
    intro field hmem
    exact h field.2 (List.of_mem_zip hmem).2

end ManaWallet.Json
