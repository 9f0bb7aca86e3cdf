import ManaWallet.Json.Tree

/-!
# Json/Value — what the lexemes of a JSON text stand for

A string stands for its characters, a number without fraction and exponent for an integer, an object or
an array for the fields of a record.
-/

namespace ManaWallet.Json

/-! ## Strings -/

/-- The value of four hexadecimal digits. -/
def codeUnit? (a b c d : Char) : Option Nat := do
  return ((((← hexValue? a) * 16 + (← hexValue? b)) * 16 + (← hexValue? c)) * 16 + (← hexValue? d))

/-- The character that a letter behind a backslash stands for. -/
def unescape? : Char → Option Char
  | '"' => some '"'
  | '\\' => some '\\'
  | '/' => some '/'
  | 'b' => some '\x08'
  | 'f' => some '\x0c'
  | 'n' => some '\n'
  | 'r' => some '\r'
  | 't' => some '\t'
  | _ => none

/-- The characters that a string stands for; none where half of a surrogate pair stands alone. -/
def characters? : List Char → Option (List Char)
  | [] => some []
  | '\\' :: 'u' :: a :: b :: c :: d :: rest =>
    (codeUnit? a b c d).bind fun unit =>
      if unit < 0xD800 ∨ 0xE000 ≤ unit then (characters? rest).map (Char.ofNat unit :: ·)
      else if 0xDC00 ≤ unit then none
      else
        match rest with
        | '\\' :: 'u' :: a :: b :: c :: d :: rest =>
          (codeUnit? a b c d).bind fun low =>
            if 0xDC00 ≤ low ∧ low < 0xE000 then
              let code := 0x10000 + (unit - 0xD800) * 0x400 + (low - 0xDC00)
              (characters? rest).map (Char.ofNat code :: ·)
            else none
        | _ => none
  | '\\' :: c :: rest => (unescape? c).bind fun c => (characters? rest).map (c :: ·)
  | c :: rest => (characters? rest).map (c :: ·)

/-- A character inside a string: quotes, backslashes and control characters are escaped. -/
def escape (c : Char) : List Char :=
  if c = '"' then ['\\', '"']
  else if c = '\\' then ['\\', '\\']
  else if c = '\x08' then ['\\', 'b']
  else if c = '\x0c' then ['\\', 'f']
  else if c = '\n' then ['\\', 'n']
  else if c = '\r' then ['\\', 'r']
  else if c = '\t' then ['\\', 't']
  else if c.toNat < 32 then
    ['\\', 'u', '0', '0', hexDigit (c.toNat / 16), hexDigit (c.toNat % 16)]
  else [c]

/-- The text that a value stands for, if it is a string. -/
def string? : Json → Option String
  | string body => (characters? body).map String.ofList
  | _ => none

/-- A text as a string. -/
def ofString (s : String) : Json := string (s.toList.flatMap escape)

/-! ## Integers -/

/-- The number that decimal digits stand for. -/
def ofDigits (ds : List Char) : Nat := ds.foldl (fun n d => 10 * n + (d.toNat - 48)) 0

/-- The integer that a value stands for, if it is a number without fraction and exponent.  A zero
behind a minus sign is none. -/
def int? : Json → Option Int
  | number ('-' :: ds) => if isDigits ds ∧ ds ≠ ['0'] then some (-(ofDigits ds : Int)) else none
  | number ds => if isDigits ds then some (ofDigits ds) else none
  | _ => none

/-- The natural number below `bound` that a value stands for. -/
def natBelow? (bound : Nat) (j : Json) : Option Nat :=
  j.int?.bind fun i => if 0 ≤ i ∧ i < bound then some i.toNat else none

/-- A natural number in decimal digits. -/
def ofNat (n : Nat) : Json := number (Nat.toDigits 10 n)

/-- An integer in decimal digits. -/
def ofInt : Int → Json
  | .ofNat n => ofNat n
  | .negSucc n => number ('-' :: Nat.toDigits 10 (n + 1))

/-- A value as a word. -/
def uint8? (j : Json) : Option UInt8 := (j.natBelow? UInt8.size).map .ofNat

@[inherit_doc uint8?] def uint16? (j : Json) : Option UInt16 := (j.natBelow? UInt16.size).map .ofNat

@[inherit_doc uint8?] def uint32? (j : Json) : Option UInt32 := (j.natBelow? UInt32.size).map .ofNat

@[inherit_doc uint8?] def uint64? (j : Json) : Option UInt64 := (j.natBelow? UInt64.size).map .ofNat

@[inherit_doc uint8?] def int64? (j : Json) : Option Int64 :=
  j.int?.bind fun i =>
    if Int64.minValue.toInt ≤ i ∧ i ≤ Int64.maxValue.toInt then some (.ofInt i) else none

/-! ## Records -/

/-- The items of an array, each read in the same way. -/
def items? {α : Type} (read : Json → Option α) : Json → Option (List α)
  | array items => items.mapM read
  | _ => none

/-- The fields of a record by the given names, in their order; a field that is not there is `none`.

An object names its fields: other members do not matter, but no field may be there twice, and every
name has to stand for characters.  An array lists the fields from the first on, and no more of them than
there are. -/
def fields? (names : List String) : Json → Option (List (Option Json))
  | object members => do
    let named ← members.mapM fun (name, value) => (characters? name).map fun cs => (cs, value)
    names.mapM fun name =>
      match named.filter fun member => member.1 = name.toList with
      | [] => some none
      | [member] => some (some member.2)
      | _ => none
  | array items =>
    if items.length ≤ names.length then
      some (items.map some ++ List.replicate (names.length - items.length) none)
    else none
  | _ => none

/-- A field that has to be there. -/
def required {α : Type} (read : Json → Option α) (field : Option Json) : Option α := field.bind read

/-- A field that has a value of its own where it is not there. -/
def orElse {α : Type} (default : α) (read : Json → Option α) (field : Option Json) : Option α :=
  field.elim (some default) read

/-- A record as an object of its fields. -/
def ofFields (fields : List (String × Json)) : Json :=
  object (fields.map fun (name, value) => (name.toList.flatMap escape, value))

end ManaWallet.Json
