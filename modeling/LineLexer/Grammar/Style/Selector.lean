import LineLexer.Grammar.Style.Basic
import LineLexer.Vocabulary.StyleNames

/-!
# Selectors

Outside all blocks a style sheet holds selectors. A brace goes on to the properties of the block,
and an at sign to the prelude of an at-rule.
-/

namespace LineLexer.Style

/-- Characters that are operators in selectors and at-rules. -/
def isOperatorChar (c : Char) : Bool :=
  c == '+' || c == '>' || c == '~' || c == '^' || c == '$' || c == '|' || c == '='

/-- Takes colons and the name after them as one piece if the name is a known one, else the colons
alone. -/
def pseudo (rest : Text) : Move :=
  let colons := if rest.head? = some ':' then 2 else 1
  -- The first colon stands before the text, so one character less is dropped.
  let name := (rest.drop (colons - 1)).takeWhile isNameChar
  if pseudos.contains name then code .reservedWord (colons + name.length) .selector
  else code .operator colons .selector

/-- Takes an at sign and the name after it, and goes on in the prelude of the at-rule. The block of
an unknown at-rule is taken to hold rules. -/
def atKeyword (rest : Text) : Move :=
  let name := rest.takeWhile isNameChar
  let body := atRules.find? name
  ⟨[⟨.regex, 1 + name.length, .style, .ofKnown body.isSome⟩],
    .style (.code (.atRule (body.getD .rules)))⟩

/-- The move in a selector. -/
def selector (c : Char) (rest : Text) : Move :=
  if c = '@' then atKeyword rest
  else if c = '{' then code .separator 1 .propertyKey
  else if c = '}' || c = ';' || c = '(' || c = ')' || c = '[' || c = ']' then
    code .separator 1 .selector
  else if c = ':' then pseudo rest
  else if c = '#' then code .variableName (runLength isNameChar rest + 1) .selector
  else if c = '*' then code .dataType 1 .selector
  else if c = '.' then code .dataType (runLength isNameChar rest + 1) .selector
  else if c = '/' then code .identifier (runLength (· == '/') rest + 1) .selector
  else if isOperatorChar c then code .operator 1 .selector
  else if isNameChar c then code .dataType (runLength isNameChar rest + 1) .selector
  else code .identifier 1 .selector

/-! ## What is taken is not empty -/

/-- Colons are taken. -/
theorem pseudo_width_pos (rest : Text) : 0 < (pseudo rest).width := by
  simp only [pseudo]
  repeat' split
  all_goals
    simp only [width_code]
    omega

/-- An at sign is taken. -/
theorem atKeyword_width_pos (rest : Text) : 0 < (atKeyword rest).width := by
  simp only [atKeyword, Move.width_singleton]
  omega

/-- A move in a selector takes something. -/
theorem selector_width_pos (c : Char) (rest : Text) : 0 < (selector c rest).width := by
  unfold selector
  repeat' split
  all_goals simp [pseudo_width_pos, atKeyword_width_pos]

end LineLexer.Style
