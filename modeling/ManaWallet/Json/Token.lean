import ManaWallet.Bytes

/-!
# Json/Token — the lexemes of a JSON text

Numbers and strings are kept as they are written: a number by all its characters, a string by those
between its quotes, escapes included.  What they stand for is asked only where a value is used, so a
part of a document that nobody reads need not stand for anything.
-/

namespace ManaWallet.Json

/-- A lexeme. -/
inductive Token where
  | openBrace
  | closeBrace
  | openBracket
  | closeBracket
  | comma
  | colon
  | null
  | bool (value : Bool)
  | number (lexeme : List Char)
  | string (body : List Char)
deriving DecidableEq, Repr

/-- Characters that may stand between lexemes. -/
def isBlank (c : Char) : Bool := c == ' ' || c == '\t' || c == '\n' || c == '\r'

/-! ## Strings -/

/-- Characters that may follow a backslash alone. -/
def isEscape (c : Char) : Bool := c ∈ ['"', '\\', '/', 'b', 'f', 'n', 'r', 't']

/-- Splits off the rest of a string up to its closing quote, which is dropped.  A control character must
be escaped. -/
def stringBody? : List Char → Option (List Char × List Char)
  | [] => none
  | '"' :: rest => some ([], rest)
  | '\\' :: 'u' :: a :: b :: c :: d :: rest =>
    if [a, b, c, d].all fun digit => (hexValue? digit).isSome then
      (stringBody? rest).map fun (body, rest) => ('\\' :: 'u' :: a :: b :: c :: d :: body, rest)
    else none
  | '\\' :: c :: rest =>
    if isEscape c then (stringBody? rest).map fun (body, rest) => ('\\' :: c :: body, rest)
    else none
  | c :: rest =>
    if c.toNat < 32 ∨ c = '\\' then none
    else (stringBody? rest).map fun (body, rest) => (c :: body, rest)

/-! ## Numbers -/

/-- Characters that a number is written with. -/
def isNumeric (c : Char) : Bool :=
  c.isDigit || c == '-' || c == '+' || c == '.' || c == 'e' || c == 'E'

/-- Digits of a whole number: a zero alone, or digits that start with another. -/
def isWhole : List Char → Bool
  | [] => false
  | ['0'] => true
  | c :: _ => c != '0'

/-- At least one digit and nothing else. -/
def isDigits (cs : List Char) : Bool := !cs.isEmpty && cs.all Char.isDigit

/-- The part of a number behind its sign and whole digits: an optional exponent. -/
def isExponent : List Char → Bool
  | [] => true
  | 'e' :: '+' :: rest | 'e' :: '-' :: rest | 'E' :: '+' :: rest | 'E' :: '-' :: rest => isDigits rest
  | 'e' :: rest | 'E' :: rest => isDigits rest
  | _ => false

/-- The part of a number behind its whole digits: an optional fraction, an optional exponent. -/
def isFraction : List Char → Bool
  | '.' :: rest => isDigits (rest.takeWhile Char.isDigit) && isExponent (rest.dropWhile Char.isDigit)
  | cs => isExponent cs

/-- A number without its sign. -/
def isMagnitude (cs : List Char) : Bool :=
  isWhole (cs.takeWhile Char.isDigit) && isFraction (cs.dropWhile Char.isDigit)

/-- A number. -/
def isNumber : List Char → Bool
  | '-' :: rest => isMagnitude rest
  | cs => isMagnitude cs

/-- Splits off a number: all the numeric characters at the front, which have to form one. -/
def number? (cs : List Char) : Option (List Char × List Char) :=
  let lexeme := cs.takeWhile isNumeric
  if isNumber lexeme then some (lexeme, cs.dropWhile isNumeric) else none

/-! ## Lexemes -/

/-- Splits off the lexeme at the front of a text that starts with no blank. -/
def Token.next? : List Char → Option (Token × List Char)
  | '\x7b' :: rest => some (.openBrace, rest)
  | '\x7d' :: rest => some (.closeBrace, rest)
  | '[' :: rest => some (.openBracket, rest)
  | ']' :: rest => some (.closeBracket, rest)
  | ',' :: rest => some (.comma, rest)
  | ':' :: rest => some (.colon, rest)
  | '"' :: rest => (stringBody? rest).map fun (body, rest) => (.string body, rest)
  | 'n' :: 'u' :: 'l' :: 'l' :: rest => some (.null, rest)
  | 't' :: 'r' :: 'u' :: 'e' :: rest => some (.bool true, rest)
  | 'f' :: 'a' :: 'l' :: 's' :: 'e' :: rest => some (.bool false, rest)
  | cs => (number? cs).map fun (lexeme, rest) => (.number lexeme, rest)

/-! ## Every lexeme takes a character -/

/-- The text behind a string is shorter than the string with it. -/
theorem length_stringBody? {cs body rest : List Char} (h : stringBody? cs = some (body, rest)) :
    rest.length < cs.length := by
  fun_induction stringBody? cs generalizing body rest
  case case1 | case4 | case6 | case7 => exact absurd h (Option.some_ne_none _).symm
  case case2 =>
    obtain ⟨-, rfl⟩ := Prod.mk.injEq .. ▸ Option.some.injEq .. ▸ h
    exact Nat.lt_succ_self _
  case case3 ih | case5 ih | case8 ih =>
    obtain ⟨⟨body', rest'⟩, hbody, heq⟩ := Option.map_eq_some_iff.mp h
    obtain ⟨-, rfl⟩ := Prod.mk.injEq .. ▸ heq
    have hshort := ih hbody
    simp only [List.length_cons]
    omega

/-- The text behind a number is shorter than the number with it. -/
theorem length_number? {cs lexeme rest : List Char} (h : number? cs = some (lexeme, rest)) :
    rest.length < cs.length := by
  simp only [number?] at h
  split at h
  · next hnum =>
    obtain ⟨rfl, rfl⟩ := Prod.mk.injEq .. ▸ Option.some.injEq .. ▸ h
    have hsplit := congrArg List.length (List.takeWhile_append_dropWhile (p := isNumeric) (l := cs))
    cases hl : cs.takeWhile isNumeric with
    | nil => rw [hl] at hnum; exact absurd hnum (by decide)
    | cons c ds => rw [hl, List.length_append, List.length_cons] at hsplit; omega
  · simp at h

/-- **A lexeme takes at least one character**, so reading lexeme after lexeme comes to an end. -/
theorem Token.length_next? {cs rest : List Char} {t : Token} (h : next? cs = some (t, rest)) :
    rest.length < cs.length := by
  unfold next? at h
  split at h
  case h_7 =>
    obtain ⟨⟨body, r⟩, hbody, heq⟩ := Option.map_eq_some_iff.mp h
    obtain ⟨-, rfl⟩ := Prod.mk.injEq .. ▸ heq
    have hshort := length_stringBody? hbody
    rw [List.length_cons]
    omega
  case h_11 =>
    obtain ⟨⟨lexeme, r⟩, hnumber, heq⟩ := Option.map_eq_some_iff.mp h
    obtain ⟨-, rfl⟩ := Prod.mk.injEq .. ▸ heq
    exact length_number? hnumber
  all_goals
    obtain ⟨-, rfl⟩ := Prod.mk.injEq .. ▸ Option.some.injEq .. ▸ h
    simp only [List.length_cons]
    omega

/-- The characters of a lexeme. -/
def Token.text : Token → List Char
  | openBrace => ['\x7b']
  | closeBrace => ['\x7d']
  | openBracket => ['[']
  | closeBracket => [']']
  | comma => [',']
  | colon => [':']
  | null => ['n', 'u', 'l', 'l']
  | bool true => ['t', 'r', 'u', 'e']
  | bool false => ['f', 'a', 'l', 's', 'e']
  | number lexeme => lexeme
  | string body => '"' :: (body ++ ['"'])

end ManaWallet.Json
