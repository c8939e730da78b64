import LineLexer.Grammar.Markup.Content
import LineLexer.Grammar.Markup.Tag

/-!
# The grammar of markup

The move of markup in each of its states. In a start tag one thing is asked of the line before:
whether the last piece that is not blank is an operator, for then a word is a value.
-/

namespace LineLexer.Markup

/-- The move of markup at a text that is not empty. -/
def move (afterOperator : Bool) (state : MarkupState) (c : Char) (rest : Text) : Move :=
  match state with
  | .content => content c rest
  | .startTag tag => startTag afterOperator tag c rest
  | .endTag => endTag c rest
  | .attributeValue quote tag => attributeValue quote tag 0 (c :: rest)
  | .comment => comment 0 (c :: rest)
  | .doctype => doctype 0 (c :: rest)
  | .instruction => instruction 0 (c :: rest)

/-! ## Every move goes forward -/

/-- Every move of markup goes forward. -/
theorem move_progresses (afterOperator : Bool) (state : MarkupState) (c : Char) (rest : Text) :
    (move afterOperator state c rest).Progresses (.markup state) := by
  cases state with
  | content => exact .inl (content_width_pos c rest)
  | startTag tag =>
    simp only [move, startTag]
    split
    · exact .inl (by simp only [blanks, width_one]; omega)
    split
    · exact .inl (by simp)
    split
    · exact .inl (by simp [piece])
    split
    · exact .inl (by simp)
    split
    · exact .inr Nat.one_pos
    split
    · exact .inl (attributeValue_width_pos _ _ _ (by simp))
    · exact .inl (by simp only [width_one]; omega)
  | endTag =>
    simp only [move, endTag]
    split
    · exact .inl (by simp only [blanks, width_one]; omega)
    split
    · exact .inl (by simp)
    split
    · exact .inr Nat.one_pos
    · exact .inl (by simp only [width_one]; omega)
  | attributeValue quote tag => exact .inl (attributeValue_width_pos _ _ _ (by simp))
  | comment => exact .inl (delimited_width_pos (by decide) _ _ _ (by simp))
  | doctype => exact .inl (delimited_width_pos (by decide) _ _ _ (by simp))
  | instruction => exact .inl (delimited_width_pos (by decide) _ _ _ (by simp))

end LineLexer.Markup
