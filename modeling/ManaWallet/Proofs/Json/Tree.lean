import ManaWallet.Json.Tree
import ManaWallet.Proofs.Json.Token

/-!
# Proofs/Json/Tree — a tree is read back from its text

    tree ──text──▸ characters ──lexeme by lexeme──▸ machine ──stack empty──▸ tree

The machine takes the text of a value as that value (`Machine.Takes`): it ends up with the stack it
started from and the value added to the innermost open bracket.  This holds of a lexeme that is a value,
and of an array and an object if it holds of what is in them, so it holds of every tree with proper
lexemes (`Machine.takes_of_proper`).
-/

namespace ManaWallet.Json

/-- A tree that has proper lexemes throughout. -/
inductive Proper : Json → Prop where
  | null : Proper null
  | bool (value : Bool) : Proper (bool value)
  | number {lexeme : List Char} (h : (Token.number lexeme).Proper) : Proper (number lexeme)
  | string {body : List Char} (h : (Token.string body).Proper) : Proper (string body)
  | array {items : List Json} (h : ∀ item ∈ items, Proper item) : Proper (array items)
  | object {members : List (List Char × Json)}
      (hnames : ∀ member ∈ members, (Token.string member.1).Proper)
      (hvalues : ∀ member ∈ members, Proper member.2) : Proper (object members)

/-- Behind an item no number goes on. -/
theorem endsNumber_itemsText (items : List Json) (rest : List Char) :
    EndsNumber (itemsText items ++ rest) := by
  cases items <;> exact endsNumber_cons (by decide) _

/-- Behind the value of a member no number goes on. -/
theorem endsNumber_membersText (members : List (List Char × Json)) (rest : List Char) :
    EndsNumber (membersText members ++ rest) := by
  cases members <;> exact endsNumber_cons (by decide) _

namespace Machine

/-! ## One lexeme -/

/-- **The machine takes a proper lexeme in one step**, a number only in front of text that does not go on
with it. -/
theorem run_text_append {t : Token} (h : t.Proper) (m : Machine) {rest : List Char}
    (hrest : ∀ lexeme, t = .number lexeme → EndsNumber rest) :
    m.run (t.text ++ rest) = (m.step t).bind fun m => m.run rest := by
  obtain ⟨c, cs, htext, hblank⟩ := Token.exists_text_eq_cons h
  have hnext := Token.next?_text_append h hrest
  rw [htext, List.cons_append] at hnext ⊢
  rw [run, if_neg (Bool.not_eq_true _ ▸ hblank)]
  split
  · next hnone => exact absurd (hnext.symm.trans hnone) (Option.some_ne_none _)
  · next hsome =>
    obtain ⟨rfl, rfl⟩ := Prod.mk.injEq .. ▸ Option.some.injEq .. ▸ hnext.symm.trans hsome
    rfl

/-! ## Values -/

/-- A machine that a value may come next in. -/
def ExpectsValue (m : Machine) : Prop := m.expects = .value ∨ m.expects = .firstItem

/-- Where a value may come next, a lexeme that is no closing bracket starts one. -/
theorem run_startValue {t : Token} (h : t.Proper) (ht : t ≠ .closeBracket) {m : Machine}
    (hm : m.ExpectsValue) {rest : List Char} (hrest : ∀ lexeme, t = .number lexeme → EndsNumber rest) :
    m.run (t.text ++ rest) = (startValue m.stack t).bind fun m => m.run rest := by
  rw [run_text_append h m hrest]
  obtain ⟨stack, e⟩ := m
  obtain rfl | rfl := hm
  · rfl
  · exact congrArg (Option.bind · _) (if_neg ht)

/-- The machine takes the text of a value as that value: it completes it and goes on behind it. -/
def Takes (j : Json) : Prop :=
  ∀ (m : Machine) (rest : List Char), m.ExpectsValue → EndsNumber rest →
    m.run (j.text ++ rest) = (complete m.stack j).bind fun m => m.run rest

/-- A proper lexeme that is a value is taken as that value. -/
theorem takes_of_token {t : Token} {j : Json} (h : t.Proper) (ht : t ≠ .closeBracket)
    (htext : j.text = t.text) (hstart : ∀ stack, startValue stack t = complete stack j) :
    Takes j := by
  intro m rest hm hrest
  rw [htext, run_startValue h ht hm fun _ _ => hrest, hstart]

/-- The machine takes the items behind the first and closes the array. -/
theorem run_itemsText {items : List Json} (h : ∀ item ∈ items, Takes item) (outer : List Frame)
    (done : List Json) (rest : List Char) :
    run ⟨.array done :: outer, .separator⟩ (itemsText items ++ rest)
      = (complete outer (.array (done.reverse ++ items))).bind fun m => m.run rest := by
  induction items generalizing done with
  | nil =>
    rw [List.append_nil]
    exact run_text_append (t := .closeBracket) rfl _ nofun
  | cons item items ih =>
    rw [itemsText, List.cons_append, List.append_assoc]
    refine (run_text_append (t := .comma) rfl _ nofun).trans ?_
    refine (h item List.mem_cons_self ⟨.array done :: outer, .value⟩ _ (.inl rfl)
      (endsNumber_itemsText items rest)).trans ?_
    refine (ih (fun item hmem => h item (List.mem_cons_of_mem _ hmem)) (item :: done)).trans ?_
    rw [List.reverse_cons, List.append_assoc, List.singleton_append]

/-- An array of values that the machine takes is taken as that array. -/
theorem takes_array {items : List Json} (h : ∀ item ∈ items, Takes item) : Takes (.array items) := by
  intro m rest hm hrest
  cases items with
  | nil =>
    refine (run_startValue (t := .openBracket) rfl nofun hm nofun).trans ?_
    exact run_text_append (t := .closeBracket) rfl _ nofun
  | cons item items =>
    rw [text, List.cons_append, List.append_assoc]
    refine (run_startValue (t := .openBracket) rfl nofun hm nofun).trans ?_
    refine (h item List.mem_cons_self ⟨.array [] :: m.stack, .firstItem⟩ _ (.inr rfl)
      (endsNumber_itemsText items rest)).trans ?_
    exact run_itemsText (fun item hmem => h item (List.mem_cons_of_mem _ hmem)) m.stack [item] rest

/-- The machine takes a member whose value it takes, at any place in an object. -/
theorem run_memberText {member : List Char × Json} (hname : (Token.string member.1).Proper)
    (hvalue : Takes member.2) {e : Expectation} (he : e = .name ∨ e = .firstName)
    (outer : List Frame) (done : List (List Char × Json)) {rest : List Char} (hrest : EndsNumber rest) :
    run ⟨.object done :: outer, e⟩ (memberText member ++ rest)
      = run ⟨.object (member :: done) :: outer, .separator⟩ rest := by
  obtain ⟨name, value⟩ := member
  have hstep : step ⟨.object done :: outer, e⟩ (.string name)
      = some ⟨.member name done :: outer, .colon⟩ := by
    rcases he with rfl | rfl <;> rfl
  rw [memberText, List.append_assoc, List.cons_append, run_text_append hname _ nofun, hstep]
  refine (run_text_append (t := .colon) rfl _ nofun).trans ?_
  exact hvalue ⟨.member name done :: outer, .value⟩ rest (.inl rfl) hrest

/-- The machine takes the members behind the first and closes the object. -/
theorem run_membersText {members : List (List Char × Json)}
    (hnames : ∀ member ∈ members, (Token.string member.1).Proper)
    (hvalues : ∀ member ∈ members, Takes member.2) (outer : List Frame)
    (done : List (List Char × Json)) (rest : List Char) :
    run ⟨.object done :: outer, .separator⟩ (membersText members ++ rest)
      = (complete outer (.object (done.reverse ++ members))).bind fun m => m.run rest := by
  induction members generalizing done with
  | nil =>
    rw [List.append_nil]
    exact run_text_append (t := .closeBrace) rfl _ nofun
  | cons member members ih =>
    rw [List.forall_mem_cons] at hnames hvalues
    rw [membersText, List.cons_append, List.append_assoc]
    refine (run_text_append (t := .comma) rfl _ nofun).trans ?_
    refine (run_memberText hnames.1 hvalues.1 (.inl rfl) outer done
      (endsNumber_membersText members rest)).trans ?_
    refine (ih hnames.2 hvalues.2 (member :: done)).trans ?_
    rw [List.reverse_cons, List.append_assoc, List.singleton_append]

/-- An object of values that the machine takes is taken as that object. -/
theorem takes_object {members : List (List Char × Json)}
    (hnames : ∀ member ∈ members, (Token.string member.1).Proper)
    (hvalues : ∀ member ∈ members, Takes member.2) : Takes (.object members) := by
  intro m rest hm hrest
  cases members with
  | nil =>
    refine (run_startValue (t := .openBrace) rfl nofun hm nofun).trans ?_
    exact run_text_append (t := .closeBrace) rfl _ nofun
  | cons member members =>
    rw [List.forall_mem_cons] at hnames hvalues
    rw [text, List.cons_append, List.append_assoc]
    refine (run_startValue (t := .openBrace) rfl nofun hm nofun).trans ?_
    refine (run_memberText hnames.1 hvalues.1 (.inr rfl) m.stack []
      (endsNumber_membersText members rest)).trans ?_
    exact run_membersText hnames.2 hvalues.2 m.stack [member] rest

/-- **The machine takes the text of a tree with proper lexemes as that tree.** -/
theorem takes_of_proper {j : Json} (h : j.Proper) : Takes j := by
  induction h with
  | null => exact takes_of_token (t := .null) rfl nofun rfl fun _ => rfl
  | bool value =>
    exact takes_of_token (t := .bool value) (by cases value <;> rfl) nofun rfl fun _ => rfl
  | number h => exact takes_of_token h nofun rfl fun _ => rfl
  | string h => exact takes_of_token h nofun rfl fun _ => rfl
  | array _ ih => exact takes_array ih
  | object hnames _ ih => exact takes_object hnames ih

end Machine

/-- **A tree with proper lexemes is read back from its text.** -/
theorem parse?_text {j : Json} (h : j.Proper) : parse? (String.ofList j.text) = some j := by
  have hrun := Machine.takes_of_proper h Machine.start [] (.inl rfl) endsNumber_nil
  rw [List.append_nil] at hrun
  rw [parse?, String.toList_ofList, hrun]
  exact Machine.run.eq_1 _

end ManaWallet.Json
