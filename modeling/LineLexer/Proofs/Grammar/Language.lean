import LineLexer.Grammar.Markup
import LineLexer.Grammar.Script
import LineLexer.Grammar.Style

/-!
# The language of a move

A move of an embedded language cuts off pieces of that language and stays in it, but for one:
at the closing tag of its element it hands back to markup (`Style.move_language`,
`Script.move_language`). A move of markup cuts off pieces of markup (`Markup.move_language`); where
it goes on is told apart for start tags, whose element may hand over to another language.
-/

namespace LineLexer

/-- A move cuts off pieces of one language only. -/
structure Move.IsOf (move : Move) (language : Language) : Prop where
  language_eq : ∀ piece ∈ move.pieces, piece.language = language

/-- A move cuts off pieces of one language and goes on in it. -/
structure Move.StaysIn (move : Move) (language : Language) : Prop extends
    move.IsOf language where
  next_language : move.next.language = language

/-! ## Markup -/

namespace Markup

/-- One piece of markup is a move of markup. -/
@[simp] theorem isOf_one (kind : Kind) (width : Nat) (next : MarkupState) :
    (one kind width next).IsOf .markup :=
  ⟨by simp [one, piece]⟩

/-- A construct with a delimiter is a piece of markup. -/
theorem isOf_delimited (delimiter : Text) (kind : Kind) (stay : MarkupState) (lead : Nat)
    (body : Text) : (delimited delimiter kind stay lead body).IsOf .markup := by
  unfold delimited
  split <;> exact isOf_one ..

/-- An attribute value is a piece of markup. -/
theorem isOf_attributeValue (quote : Quote) (tag : TagKind) (lead : Nat) (body : Text) :
    (attributeValue quote tag lead body).IsOf .markup := by
  unfold attributeValue
  split <;> exact isOf_one ..

/-- The start of a tag is two pieces of markup. -/
theorem isOf_tagStart (bracket : Nat) (name : Text) (next : MarkupState) :
    (tagStart bracket name next).IsOf .markup :=
  ⟨by simp [tagStart, piece]⟩

/-- What a bracket opens is of markup. -/
theorem isOf_opening (rest : Text) : (opening rest).IsOf .markup := by
  simp only [opening, comment, doctype, instruction]
  repeat' split
  all_goals first
    | exact isOf_delimited ..
    | exact isOf_tagStart ..
    | exact isOf_one ..

/-- A move of markup cuts off pieces of markup. -/
theorem move_isOf (afterOperator : Bool) (state : MarkupState) (c : Char) (rest : Text) :
    (move afterOperator state c rest).IsOf .markup := by
  cases state with
  | content =>
    simp only [move, content]
    repeat' split
    all_goals first
      | exact isOf_opening ..
      | exact isOf_one ..
  | startTag tag =>
    simp only [move, startTag]
    repeat' split
    all_goals first
      | exact isOf_one ..
      | exact isOf_attributeValue ..
      | exact ⟨by simp [piece]⟩
  | endTag =>
    simp only [move, endTag]
    repeat' split
    all_goals first
      | exact isOf_one ..
      | exact ⟨by simp⟩
  | attributeValue quote tag => exact isOf_attributeValue ..
  | comment => exact isOf_delimited ..
  | doctype => exact isOf_delimited ..
  | instruction => exact isOf_delimited ..

end Markup

/-! ## Style sheets -/

namespace Style

/-- One piece of a style sheet stays in it. -/
@[simp] theorem staysIn_one (kind : Kind) (width : Nat) (next : StyleState) :
    (one kind width next).StaysIn .style :=
  ⟨⟨by simp [one, piece]⟩, rfl⟩

/-- One piece of code stays in the style sheet. -/
@[simp] theorem staysIn_code (kind : Kind) (width : Nat) (next : StyleContext) :
    (code kind width next).StaysIn .style :=
  staysIn_one ..

/-- A comment stays in the style sheet. -/
theorem staysIn_comment (context : StyleContext) (lead : Nat) (body : Text) :
    (comment context lead body).StaysIn .style := by
  unfold comment
  split <;> simp

/-- A literal stays in the style sheet. -/
theorem staysIn_literal (quote : Quote) (context : StyleContext) (lead : Nat) (body : Text) :
    (literal quote context lead body).StaysIn .style := by
  unfold literal
  split <;> simp

/-- A selector stays in the style sheet. -/
theorem staysIn_selector (c : Char) (rest : Text) : (selector c rest).StaysIn .style := by
  have hat : (atKeyword rest).StaysIn .style := ⟨⟨by simp [atKeyword]⟩, rfl⟩
  have hpseudo : (pseudo rest).StaysIn .style := by
    simp only [pseudo]
    repeat' split
    all_goals exact staysIn_code ..
  unfold selector
  repeat' split
  all_goals first | exact staysIn_code .. | assumption

/-- The prelude of an at-rule stays in the style sheet. -/
theorem staysIn_atRulePrelude (body : AtRuleBody) (c : Char) (rest : Text) :
    (atRulePrelude body c rest).StaysIn .style := by
  unfold atRulePrelude
  repeat' split
  all_goals exact staysIn_code ..

/-- The left side of a declaration stays in the style sheet. -/
theorem staysIn_propertyKey (c : Char) (rest : Text) : (propertyKey c rest).StaysIn .style := by
  unfold propertyKey
  repeat' split
  all_goals exact staysIn_code ..

/-- The right side of a declaration stays in the style sheet. -/
theorem staysIn_propertyValue (c : Char) (rest : Text) :
    (propertyValue c rest).StaysIn .style := by
  unfold propertyValue
  repeat' split
  all_goals exact staysIn_code ..

/-- A move of a style sheet stays in it, or closes the element from code at its closing tag. -/
theorem move_language (state : StyleState) (c : Char) (rest : Text) :
    (move state c rest).StaysIn .style ∨
      c = '<' ∧ atClosingTag styleTag (c :: rest) = true ∧
        move state c rest = closeElement styleTag := by
  cases state with
  | comment context => exact .inl (staysIn_comment ..)
  | literal quote context => exact .inl (staysIn_literal ..)
  | code context =>
    simp only [move, contextMove]
    split
    · exact .inl (staysIn_code ..)
    split
    · exact .inl (staysIn_comment ..)
    split
    next h =>
      rw [Bool.and_eq_true, decide_eq_true_eq] at h
      exact .inr ⟨h.1, h.2, rfl⟩
    split
    · exact .inl (staysIn_literal ..)
    cases context with
    | selector => exact .inl (staysIn_selector ..)
    | atRule body => exact .inl (staysIn_atRulePrelude ..)
    | propertyKey => exact .inl (staysIn_propertyKey ..)
    | propertyValue => exact .inl (staysIn_propertyValue ..)

end Style

/-! ## Scripts -/

namespace Script

/-- One piece of a script stays in it. -/
@[simp] theorem staysIn_one (kind : Kind) (width : Nat) (next : ScriptState) :
    (one kind width next).StaysIn .script :=
  ⟨⟨by simp [one, piece]⟩, rfl⟩

/-- A comment stays in the script. -/
theorem staysIn_comment (lead : Nat) (body : Text) : (comment lead body).StaysIn .script := by
  unfold comment
  split <;> simp

/-- A template stays in the script. -/
theorem staysIn_template (valid : Bool) (lead : Nat) (text : Text) :
    (template valid lead text).StaysIn .script := by
  simp only [template]
  split
  · exact staysIn_one ..
  · exact staysIn_one ..
  · exact ⟨⟨by simp [piece]⟩, rfl⟩

/-- A slash stays in the script. -/
theorem staysIn_slash (regexAllowed : Bool) (rest : Text) :
    (slash regexAllowed rest).StaysIn .script := by
  unfold slash
  split
  · exact staysIn_one ..
  split
  · exact staysIn_comment ..
  repeat' split
  all_goals exact staysIn_one ..

/-- Any other code stays in the script. -/
theorem staysIn_plainCode (c : Char) (rest : Text) : (plainCode c rest).StaysIn .script := by
  unfold plainCode
  repeat' split
  all_goals exact staysIn_one ..

/-- A move of a script stays in it, or closes the element from code at its closing tag. -/
theorem move_language (regexAllowed : Bool) (state : ScriptState) (c : Char) (rest : Text) :
    (move regexAllowed state c rest).StaysIn .script ∨
      c = '<' ∧ atClosingTag scriptTag (c :: rest) = true ∧
        move regexAllowed state c rest = closeElement scriptTag := by
  cases state with
  | comment => exact .inl (staysIn_comment ..)
  | literal quote valid => exact .inl (staysIn_one ..)
  | template valid => exact .inl (staysIn_template ..)
  | interpolation depth => exact .inl (staysIn_one ..)
  | code =>
    simp only [move, code]
    split
    · exact .inl (staysIn_one ..)
    split
    next h =>
      rw [Bool.and_eq_true, decide_eq_true_eq] at h
      exact .inr ⟨h.1, h.2, rfl⟩
    split
    · exact .inl (staysIn_slash ..)
    split
    · exact .inl (staysIn_template ..)
    split
    · exact .inl (staysIn_one ..)
    · exact .inl (staysIn_plainCode ..)

/-- At its closing tag, a script ends. -/
theorem move_of_atClosingTag (regexAllowed : Bool) {rest : Text}
    (h : atClosingTag scriptTag ('<' :: rest) = true) :
    move regexAllowed .code '<' rest = closeElement scriptTag := by
  have hblank : isBlank '<' = false := by decide
  simp [move, code, hblank, h]

end Script

end LineLexer
