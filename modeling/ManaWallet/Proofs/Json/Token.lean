import ManaWallet.Json.Token
import Mathlib.Data.List.TakeWhile

/-!
# Proofs/Json/Token — lexemes are told apart from what follows them

A lexeme that is read as itself where it stands alone (`Token.Proper`) is read as itself in front of
other text too (`Token.next?_text_append`).  Only a number asks something of that text: the numeric
characters at its front would be taken as part of the number.
-/

namespace ManaWallet.Json

/-- A lexeme that is read as itself where it stands alone. -/
def Token.Proper (t : Token) : Prop := next? t.text = some (t, [])

instance (t : Token) : Decidable t.Proper :=
  inferInstanceAs (Decidable (Token.next? t.text = some (t, [])))

/-! ## Strings -/

/-- A letter that may follow a backslash alone is kept with it. -/
theorem stringBody?_backslash {c : Char} (h : isEscape c = true) (rest : List Char) :
    stringBody? ('\\' :: c :: rest)
      = (stringBody? rest).map fun (body, rest) => ('\\' :: c :: body, rest) := by
  rw [stringBody?, if_pos h]
  -- four hexadecimal digits are only looked for behind the letter of which `isEscape` does not hold
  rintro _ _ _ _ _ rfl
  exact absurd h (by decide)

/-- Four hexadecimal digits behind `\u` are kept with it. -/
theorem stringBody?_unicode {a b c d : Char}
    (h : ([a, b, c, d].all fun digit => (hexValue? digit).isSome) = true) (rest : List Char) :
    stringBody? ('\\' :: 'u' :: a :: b :: c :: d :: rest)
      = (stringBody? rest).map fun (body, rest) =>
          ('\\' :: 'u' :: a :: b :: c :: d :: body, rest) := by
  rw [stringBody?, if_pos h]

/-- A character that needs no escape is kept. -/
theorem stringBody?_plain {c : Char} (hquote : c ≠ '"') (h : ¬(c.toNat < 32 ∨ c = '\\'))
    (rest : List Char) :
    stringBody? (c :: rest) = (stringBody? rest).map fun (body, rest) => (c :: body, rest) := by
  rw [stringBody?, if_neg h]
  · exact hquote
  · rintro _ _ _ _ _ rfl
    exact absurd (Or.inr rfl) h
  · rintro _ _ rfl
    exact absurd (Or.inr rfl) h

/-- **A string ends at its closing quote**, whatever stands behind it. -/
theorem stringBody?_append {cs body rest : List Char} (h : stringBody? cs = some (body, rest))
    (more : List Char) : stringBody? (cs ++ more) = some (body, rest ++ more) := by
  fun_induction stringBody? cs generalizing body rest
  case case1 | case4 | case6 | case7 => exact absurd h (Option.some_ne_none _).symm
  case case2 =>
    obtain ⟨rfl, rfl⟩ := Prod.mk.injEq .. ▸ Option.some.injEq .. ▸ h
    rfl
  case case3 hhex ih =>
    obtain ⟨⟨body', rest'⟩, hbody, heq⟩ := Option.map_eq_some_iff.mp h
    obtain ⟨rfl, rfl⟩ := Prod.mk.injEq .. ▸ heq
    exact (stringBody?_unicode hhex _).trans (congrArg _ (ih hbody))
  case case5 hescape ih =>
    obtain ⟨⟨body', rest'⟩, hbody, heq⟩ := Option.map_eq_some_iff.mp h
    obtain ⟨rfl, rfl⟩ := Prod.mk.injEq .. ▸ heq
    exact (stringBody?_backslash hescape _).trans (congrArg _ (ih hbody))
  case case8 hquote _ _ hplain ih =>
    obtain ⟨⟨body', rest'⟩, hbody, heq⟩ := Option.map_eq_some_iff.mp h
    obtain ⟨rfl, rfl⟩ := Prod.mk.injEq .. ▸ heq
    exact (stringBody?_plain hquote hplain _).trans (congrArg _ (ih hbody))

/-- A string is proper exactly if its first quote is the closing one. -/
theorem Token.proper_string_iff {body : List Char} :
    (string body).Proper ↔ stringBody? (body ++ ['"']) = some (body, []) := by
  simp [Proper, next?, text]

/-! ## Numbers -/

/-- Text that does not go on with a number. -/
def EndsNumber (rest : List Char) : Prop := ∀ c ∈ rest.head?, isNumeric c = false

theorem endsNumber_nil : EndsNumber [] := nofun

theorem endsNumber_cons {c : Char} (h : isNumeric c = false) (rest : List Char) :
    EndsNumber (c :: rest) := by
  rintro _ ⟨⟩
  exact h

/-- A number with text behind it that does not go on with a number is split off whole. -/
theorem number?_append {lexeme rest : List Char} (hall : ∀ c ∈ lexeme, isNumeric c = true)
    (hnumber : isNumber lexeme = true) (hrest : EndsNumber rest) :
    number? (lexeme ++ rest) = some (lexeme, rest) := by
  have hstop : rest.takeWhile isNumeric = [] ∧ rest.dropWhile isNumeric = rest := by
    cases rest with
    | nil => exact ⟨rfl, rfl⟩
    | cons c cs => simp [hrest c rfl]
  simp only [number?, List.takeWhile_append_of_pos hall, List.dropWhile_append_of_pos hall, hstop,
    List.append_nil, if_pos hnumber]

/-- What is split off as a number is one, and what is left behind nothing has no other characters than
numeric ones. -/
theorem isNumber_of_number?_eq {lexeme : List Char} (h : number? lexeme = some (lexeme, [])) :
    (∀ c ∈ lexeme, isNumeric c = true) ∧ isNumber lexeme = true := by
  simp only [number?] at h
  split at h
  · next hnumber =>
    obtain ⟨htake, hdrop⟩ := Prod.mk.injEq .. ▸ Option.some.injEq .. ▸ h
    exact ⟨List.dropWhile_eq_nil_iff.mp hdrop, htake ▸ hnumber⟩
  · simp at h

/-- A numeric character starts no other lexeme than a number. -/
theorem Token.next?_of_isNumeric {c : Char} (h : isNumeric c = true) (cs : List Char) :
    next? (c :: cs) = (number? (c :: cs)).map fun (lexeme, rest) => (.number lexeme, rest) := by
  unfold next?
  split
  case h_11 => rfl
  all_goals
    obtain ⟨rfl, -⟩ := List.cons.injEq .. ▸ ‹c :: cs = _›
    exact absurd h (by decide)

/-- A lexeme that is read as a number is split off as one. -/
theorem Token.number?_of_next?_eq {cs lexeme rest : List Char}
    (h : next? cs = some (number lexeme, rest)) : number? cs = some (lexeme, rest) := by
  unfold next? at h
  split at h
  case h_7 =>
    obtain ⟨_, -, heq⟩ := Option.map_eq_some_iff.mp h
    exact nomatch heq
  case h_11 =>
    obtain ⟨⟨_, _⟩, hnumber, ⟨⟩⟩ := Option.map_eq_some_iff.mp h
    exact hnumber
  all_goals exact nomatch h

/-- A number is proper exactly if it is one and has numeric characters only. -/
theorem Token.proper_number_iff {lexeme : List Char} : (number lexeme).Proper ↔
    (∀ c ∈ lexeme, isNumeric c = true) ∧ isNumber lexeme = true := by
  constructor
  · intro h
    exact isNumber_of_number?_eq (number?_of_next?_eq h)
  · rintro ⟨hall, hnumber⟩
    cases lexeme with
    | nil => exact absurd hnumber (by decide)
    | cons c cs =>
      have hsplit := number?_append hall hnumber endsNumber_nil
      rw [List.append_nil] at hsplit
      exact (next?_of_isNumeric (hall c List.mem_cons_self) cs).trans (congrArg _ hsplit)

example : (Token.number "-12.5e+3".toList).Proper ∧ ¬(Token.number "01".toList).Proper := by decide

/-! ## Every lexeme -/

/-- **A proper lexeme is read as itself in front of other text**, a number only if that text does not go
on with it. -/
theorem Token.next?_text_append {t : Token} (h : t.Proper) {rest : List Char}
    (hrest : ∀ lexeme, t = number lexeme → EndsNumber rest) :
    next? (t.text ++ rest) = some (t, rest) := by
  cases t with
  | number lexeme =>
    obtain ⟨hall, hnumber⟩ := proper_number_iff.mp h
    have hsplit := number?_append hall hnumber (hrest lexeme rfl)
    cases lexeme with
    | nil => exact absurd hnumber (by decide)
    | cons c cs =>
      exact (next?_of_isNumeric (hall c List.mem_cons_self) _).trans (congrArg _ hsplit)
  | string body =>
    have hbody := stringBody?_append (proper_string_iff.mp h) rest
    exact congrArg (Option.map fun (body, rest) => (string body, rest)) hbody
  | bool value => cases value <;> rfl
  | _ => rfl

/-- A numeric character is no blank. -/
theorem isBlank_of_isNumeric {c : Char} (h : isNumeric c = true) : isBlank c = false := by
  by_contra hblank
  simp only [isBlank, Bool.or_eq_true, beq_iff_eq, Bool.not_eq_false] at hblank
  rcases hblank with ((rfl | rfl) | rfl) | rfl <;> exact absurd h (by decide)

/-- A proper lexeme starts with no blank. -/
theorem Token.exists_text_eq_cons {t : Token} (h : t.Proper) :
    ∃ c cs, t.text = c :: cs ∧ isBlank c = false := by
  cases t with
  | number lexeme =>
    obtain ⟨hall, hnumber⟩ := proper_number_iff.mp h
    cases lexeme with
    | nil => exact absurd hnumber (by decide)
    | cons c cs => exact ⟨c, cs, rfl, isBlank_of_isNumeric (hall c List.mem_cons_self)⟩
  | bool value => cases value <;> exact ⟨_, _, rfl, by decide⟩
  | _ => exact ⟨_, _, rfl, by decide⟩

end ManaWallet.Json
