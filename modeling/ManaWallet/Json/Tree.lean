import ManaWallet.Json.Token

/-!
# Json/Tree — a JSON text as a tree

    text ──next lexeme──▸ machine ──values on a stack of open brackets──▸ tree

The tree keeps what is written: members in their order with repeated names, numbers and strings as
lexemes.  Brackets that are still open are kept on a stack, so how deep a text nests costs no recursion.
-/

namespace ManaWallet

/-- A JSON value as it is written. -/
inductive Json where
  | null
  | bool (value : Bool)
  | number (lexeme : List Char)
  | string (body : List Char)
  | array (items : List Json)
  | object (members : List (List Char × Json))

namespace Json

/-- A bracket that is still open, with what stands in it so far, the latest first. -/
inductive Frame where
  | array (items : List Json)
  | object (members : List (List Char × Json))
  /-- A member whose value is still to come. -/
  | member (name : List Char) (members : List (List Char × Json))

/-- What the next lexeme may be. -/
inductive Expectation where
  | value
  /-- A value, or the end of the array that has just been opened. -/
  | firstItem
  | name
  /-- A name, or the end of the object that has just been opened. -/
  | firstName
  | colon
  /-- A comma or a closing bracket. -/
  | separator
  /-- Nothing; the text is complete. -/
  | finished (result : Json)

/-- The state of reading between two lexemes. -/
structure Machine where
  stack : List Frame
  expects : Expectation

namespace Machine

/-- Before the first lexeme. -/
def start : Machine := ⟨[], .value⟩

/-- Adds a complete value to the innermost open bracket. -/
def complete (stack : List Frame) (value : Json) : Option Machine :=
  match stack with
  | [] => some ⟨[], .finished value⟩
  | .array items :: outer => some ⟨.array (value :: items) :: outer, .separator⟩
  | .member name members :: outer => some ⟨.object ((name, value) :: members) :: outer, .separator⟩
  | .object _ :: _ => none

/-- Closes the innermost open bracket with a closing one of its kind. -/
def close (stack : List Frame) (bracket : Token) : Option Machine :=
  match stack, bracket with
  | .array items :: outer, .closeBracket => complete outer (.array items.reverse)
  | .object members :: outer, .closeBrace => complete outer (.object members.reverse)
  | _, _ => none

/-- Takes the lexeme that a value starts with. -/
def startValue (stack : List Frame) : Token → Option Machine
  | .openBracket => some ⟨.array [] :: stack, .firstItem⟩
  | .openBrace => some ⟨.object [] :: stack, .firstName⟩
  | .null => complete stack .null
  | .bool value => complete stack (.bool value)
  | .number lexeme => complete stack (.number lexeme)
  | .string body => complete stack (.string body)
  | _ => none

/-- Takes the name of a member. -/
def startMember (stack : List Frame) (name : Token) : Option Machine :=
  match stack, name with
  | .object members :: outer, .string body => some ⟨.member body members :: outer, .colon⟩
  | _, _ => none

/-- Takes one lexeme; none where it does not fit. -/
def step (m : Machine) (t : Token) : Option Machine :=
  match m.expects with
  | .value => startValue m.stack t
  | .firstItem => if t = .closeBracket then close m.stack t else startValue m.stack t
  | .name => startMember m.stack t
  | .firstName => if t = .closeBrace then close m.stack t else startMember m.stack t
  | .colon => if t = .colon then some ⟨m.stack, .value⟩ else none
  | .separator =>
    match t, m.stack with
    | .comma, .array items :: outer => some ⟨.array items :: outer, .value⟩
    | .comma, .object members :: outer => some ⟨.object members :: outer, .name⟩
    | t, stack => close stack t
  | .finished _ => none

/-- The value of a text that is complete. -/
def result? (m : Machine) : Option Json :=
  match m.expects with
  | .finished value => some value
  | _ => none

/-- Reads a text to its end. -/
def run (m : Machine) (cs : List Char) : Option Json :=
  match cs with
  | [] => m.result?
  | c :: rest =>
    if isBlank c then run m rest
    else
      match h : Token.next? (c :: rest) with
      | none => none
      | some (token, rest') =>
        have := Token.length_next? h
        (m.step token).bind fun m => run m rest'
termination_by cs.length
decreasing_by
  · exact Nat.lt_succ_self _
  · assumption

end Machine

/-- The value of a JSON text; none where the text is not JSON. -/
def parse? (text : String) : Option Json := Machine.start.run text.toList

/-! ## Writing -/

mutual

/-- The lexemes of a value, with no blanks between them. -/
def text : Json → List Char
  | null => Token.null.text
  | bool value => (Token.bool value).text
  | number lexeme => (Token.number lexeme).text
  | string body => (Token.string body).text
  | array [] => ['[', ']']
  | array (item :: items) => '[' :: (text item ++ itemsText items)
  | object [] => ['\x7b', '\x7d']
  | object (member :: members) => '\x7b' :: (memberText member ++ membersText members)

/-- The items behind the first, and the closing bracket. -/
def itemsText : List Json → List Char
  | [] => [']']
  | item :: items => ',' :: (text item ++ itemsText items)

/-- The members behind the first, and the closing brace. -/
def membersText : List (List Char × Json) → List Char
  | [] => ['\x7d']
  | member :: members => ',' :: (memberText member ++ membersText members)

/-- A name, a colon and a value. -/
def memberText : List Char × Json → List Char
  | (name, value) => (Token.string name).text ++ (':' :: text value)

end

end Json

end ManaWallet
