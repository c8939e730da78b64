import LineLexer.Grammar.Move
import LineLexer.Text.Search

/-!
# Pieces of markup

The moves that take one piece of markup, and the constructs that run to a delimiter: comments,
declarations, processing instructions and quoted attribute values. Any of them may stay open at the
end of a line and goes on at the start of the next.
-/

namespace LineLexer.Markup

/-- A piece of markup without attributes. -/
def piece (kind : Kind) (width : Nat) : Piece :=
  ⟨kind, width, .markup, .empty⟩

/-- The move that takes one piece and goes on in a state of markup. -/
def one (kind : Kind) (width : Nat) (next : MarkupState) : Move :=
  ⟨[piece kind width], .markup next⟩

@[simp] theorem width_one (kind : Kind) (width : Nat) (next : MarkupState) :
    (one kind width next).width = width := by
  simp [one, piece]

/-- Takes the blanks at the head, of which the first is known. -/
def blanks (rest : Text) (next : MarkupState) : Move :=
  one .whitespace (runLength isBlank rest + 1) next

/-! ## Delimited constructs -/

/-- Takes the body of a construct through its delimiter, after `lead` characters that open it. With
no delimiter on the line, the construct stays open. -/
def delimited (delimiter : Text) (kind : Kind) (stay : MarkupState) (lead : Nat) (body : Text) :
    Move :=
  match widthThrough? delimiter body with
  | some width => one kind (lead + width) .content
  | none => one kind (lead + body.length) stay

/-- Takes a comment. -/
def comment (lead : Nat) (body : Text) : Move :=
  delimited "-->".toList .markupComment .comment lead body

/-- Takes a declaration. -/
def doctype (lead : Nat) (body : Text) : Move :=
  delimited ">".toList .markupDtd .doctype lead body

/-- Takes a processing instruction. -/
def instruction (lead : Nat) (body : Text) : Move :=
  delimited "?>".toList .markupProcessingInstruction .instruction lead body

/-- Takes a quoted attribute value through its closing quote, after `lead` characters that open it.
With no closing quote on the line, the value stays open. -/
def attributeValue (quote : Quote) (tag : TagKind) (lead : Nat) (body : Text) : Move :=
  match widthThrough? [quote.char] body with
  | some width => one .markupTagAttributeValue (lead + width) (.startTag tag)
  | none => one .markupTagAttributeValue (lead + body.length) (.attributeValue quote tag)

/-! ## What is taken is not empty -/

/-- What is taken through a delimiter is not empty. -/
theorem delimited_width_pos {delimiter : Text} (hd : delimiter ≠ []) (kind : Kind)
    (stay : MarkupState) (lead : Nat) {body : Text} (hb : lead = 0 → body ≠ []) :
    0 < (delimited delimiter kind stay lead body).width := by
  have hd := List.length_pos_iff.2 hd
  unfold delimited
  split
  next width h =>
    have := length_le_of_widthThrough? h
    simp only [width_one]
    omega
  next =>
    simp only [width_one]
    rcases Nat.eq_zero_or_pos lead with h | h
    · have := List.length_pos_iff.2 (hb h)
      omega
    · omega

/-- An attribute value is not empty. -/
theorem attributeValue_width_pos (quote : Quote) (tag : TagKind) (lead : Nat) {body : Text}
    (hb : lead = 0 → body ≠ []) : 0 < (attributeValue quote tag lead body).width := by
  unfold attributeValue
  split
  next width h =>
    have := length_le_of_widthThrough? h
    simp only [width_one, List.length_singleton] at this ⊢
    omega
  next =>
    simp only [width_one]
    rcases Nat.eq_zero_or_pos lead with h | h
    · have := List.length_pos_iff.2 (hb h)
      omega
    · omega

end LineLexer.Markup
