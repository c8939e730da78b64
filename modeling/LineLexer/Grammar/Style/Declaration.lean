import LineLexer.Grammar.Style.Selector
import LineLexer.Grammar.Style.Value

/-!
# At-rules and declarations

The prelude of an at-rule, and the two sides of a declaration in a block.
-/

namespace LineLexer.Style

/-- The context in the block of an at-rule. -/
def blockContext : AtRuleBody → StyleContext
  | .rules => .selector
  | .declarations => .propertyKey

/-- The move in the prelude of an at-rule. -/
def atRulePrelude (body : AtRuleBody) (c : Char) (rest : Text) : Move :=
  if c = ';' then code .separator 1 .selector
  else if c = '{' then code .separator 1 (blockContext body)
  else if c = '}' then code .separator 1 .selector
  else if c = '(' || c = ')' || c = '[' || c = ']' then code .separator 1 (.atRule body)
  else if c = ':' || isOperatorChar c then code .operator 1 (.atRule body)
  -- A plus sign has been taken as an operator, so only a minus sign can start a number here.
  else
    match numberWidth? (c :: rest) with
    | some width => number width (c :: rest) (.atRule body)
    | none =>
      if isNameChar c then wordOrCall rest (.atRule body)
      else code .identifier 1 (.atRule body)

/-- The move left of the colon of a declaration. -/
def propertyKey (c : Char) (rest : Text) : Move :=
  if c = ':' then code .operator 1 .propertyValue
  else if c = '}' then code .separator 1 .selector
  else if c = '{' then code .separator 1 .propertyKey
  else if c = ';' then code .operator 1 .propertyKey
  else if c = '*' || isNameChar c then
    code .reservedWord (runLength isNameChar rest + 1) .propertyKey
  else code .identifier 1 .propertyKey

/-- The move right of the colon of a declaration. -/
def propertyValue (c : Char) (rest : Text) : Move :=
  if c = ';' then code .operator 1 .propertyKey
  else if c = '}' then code .separator 1 .selector
  else if c = '{' || c = '(' || c = ')' || c = '[' || c = ']' then
    code .separator 1 .propertyValue
  else if c = '!' && startsWithFolded "important".toList rest then
    code .preprocessor 10 .propertyValue
  else if c = '#' && rest.head?.any isHexDigit then
    code .literalDecimalInt (runLength isHexDigit rest + 1) .propertyValue
  -- A minus sign starts a number if digits follow, and a name otherwise.
  else
    match numberWidth? (c :: rest) with
    | some width => number width (c :: rest) .propertyValue
    | none =>
      if isNameChar c then wordOrCall rest .propertyValue
      else code .identifier 1 .propertyValue

/-! ## What is taken is not empty -/

/-- A move in the prelude of an at-rule takes something. -/
theorem atRulePrelude_width_pos (body : AtRuleBody) (c : Char) (rest : Text) :
    0 < (atRulePrelude body c rest).width := by
  unfold atRulePrelude
  repeat' split
  case h_1 h => exact number_width_pos (numberWidth?_pos h) _ _
  all_goals simp [wordOrCall_width_pos]

/-- A move left of a colon takes something. -/
theorem propertyKey_width_pos (c : Char) (rest : Text) : 0 < (propertyKey c rest).width := by
  unfold propertyKey
  repeat' split
  all_goals simp

/-- A move right of a colon takes something. -/
theorem propertyValue_width_pos (c : Char) (rest : Text) : 0 < (propertyValue c rest).width := by
  unfold propertyValue
  repeat' split
  case h_1 h => exact number_width_pos (numberWidth?_pos h) _ _
  all_goals simp [wordOrCall_width_pos]

end LineLexer.Style
