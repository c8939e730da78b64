import LineLexer.Grammar.ClosingTag

/-!
# Pieces of scripts

The moves that take one piece of a script, and comments, which a closing tag ends like code.
-/

namespace LineLexer.Script

/-- The characters that go on with a word. -/
def isWordChar (c : Char) : Bool :=
  c.isAlphanum || c == '_' || c == '$' || isNonAscii c

/-- A piece of a script. -/
def piece (kind : Kind) (width : Nat) : Piece :=
  ⟨kind, width, .script, .empty⟩

/-- The move that takes one piece and goes on in a state of a script. -/
def one (kind : Kind) (width : Nat) (next : ScriptState) : Move :=
  ⟨[piece kind width], .script next⟩

@[simp] theorem width_one (kind : Kind) (width : Nat) (next : ScriptState) :
    (one kind width next).width = width := by
  simp [one, piece]

/-! ## Comments -/

/-- Takes a comment to the end of the line, or up to a closing tag on it. -/
def lineComment (text : Text) : Move :=
  one .commentEol ((closingTagIndex? scriptTag text).getD text.length) .code

/-- Takes the body of a comment, after `lead` characters that open it. -/
def comment (lead : Nat) (body : Text) : Move :=
  match commentWidth? scriptTag body with
  | some width => one .commentMultiline (lead + width) .code
  | none => one .commentMultiline (lead + body.length) .comment

/-! ## What is taken is not empty -/

/-- A line comment holds its two slashes. -/
theorem lineComment_width_pos (c : Char) (rest : Text) (h : c ≠ '<') :
    0 < (lineComment (c :: rest)).width := by
  simp only [lineComment, width_one, closingTagIndex?]
  cases closingTagIndex? scriptTag rest <;> simp [h]

/-- A comment after its opening holds the opening. -/
theorem comment_width_ge (lead : Nat) (body : Text) : lead ≤ (comment lead body).width := by
  unfold comment
  split <;> simp

/-- The rest of a comment is not empty, or the comment ends where it stands. -/
theorem comment_progresses (c : Char) (rest : Text) :
    (comment 0 (c :: rest)).Progresses (.script .comment) := by
  unfold comment
  split
  · exact .inr Nat.one_pos
  · exact .inl (by simp)

end LineLexer.Script
