import LineLexer.Grammar.Style.Declaration

/-!
# The grammar of style sheets

Four contexts read code: selectors, the prelude of an at-rule, property names and property values.
They share blanks, comments, literals and the closing tag of the style sheet; all else each context
reads by its own rules.
-/

namespace LineLexer.Style

/-- The move in the code of a context. -/
def contextMove (context : StyleContext) (c : Char) (rest : Text) : Move :=
  if isBlank c then code .whitespace (runLength isBlank rest + 1) context
  else if c = '/' && rest.head? = some '*' then comment context 2 (rest.drop 1)
  else if c = '<' && atClosingTag styleTag (c :: rest) then closeElement styleTag
  else
    match Quote.ofChar? c with
    | some quote => literal quote context 1 rest
    | none =>
      -- So far all contexts are alike; the rest each reads by its own rules.
      match context with
      | .selector => selector c rest
      | .atRule body => atRulePrelude body c rest
      | .propertyKey => propertyKey c rest
      | .propertyValue => propertyValue c rest

/-- The move of a style sheet at a text that is not empty. -/
def move (state : StyleState) (c : Char) (rest : Text) : Move :=
  match state with
  | .code context => contextMove context c rest
  | .comment context => comment context 0 (c :: rest)
  | .literal quote context => literal quote context 0 (c :: rest)

/-! ## Every move goes forward -/

/-- A move in code takes something. -/
theorem contextMove_width_pos (context : StyleContext) (c : Char) (rest : Text) :
    0 < (contextMove context c rest).width := by
  unfold contextMove
  split
  · simp
  split
  · exact Nat.lt_of_lt_of_le (by decide) (comment_width_ge _ 2 _)
  split
  · exact closeElement_width_pos _
  split
  · exact literal_width_pos _ _ _ (by simp)
  cases context with
  | selector => exact selector_width_pos c rest
  | atRule body => exact atRulePrelude_width_pos body c rest
  | propertyKey => exact propertyKey_width_pos c rest
  | propertyValue => exact propertyValue_width_pos c rest

/-- Every move of a style sheet goes forward. -/
theorem move_progresses (state : StyleState) (c : Char) (rest : Text) :
    (move state c rest).Progresses (.style state) := by
  cases state with
  | code context => exact .inl (contextMove_width_pos context c rest)
  | comment context => exact comment_progresses context c rest
  | literal quote context => exact .inl (literal_width_pos _ _ _ (by simp))

end LineLexer.Style
