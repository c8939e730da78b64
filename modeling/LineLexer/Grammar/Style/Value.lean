import LineLexer.Grammar.Number
import LineLexer.Grammar.Style.Basic
import LineLexer.Vocabulary.StyleNames

/-!
# Values in style sheets

Names, calls, and numbers with their units, as they stand in the prelude of an at-rule and right of
the colon of a declaration.
-/

namespace LineLexer.Style

/-- Takes a name, which is a call if a parenthesis follows. -/
def wordOrCall (rest : Text) (context : StyleContext) : Move :=
  let width := runLength isNameChar rest
  code (if (rest.drop width).head? = some '(' then .functionName else .identifier) (1 + width)
    context

/-- The width of the number that starts a text, without a unit: an optional sign, digits, and an
optional point with digits, of which at least one digit is there. -/
def numberWidth? (text : Text) : Option Nat :=
  let sign := signWidth text
  let whole := digitsWidth (text.drop sign)
  let fraction := fractionWidth (text.drop (sign + whole))
  if whole = 0 ∧ fraction ≤ 1 then none else some (sign + whole + fraction)

/-- The width of the unit that starts a text: a percent sign, or letters that are a known unit. -/
def unitWidth (text : Text) : Nat :=
  if text.head? = some '%' then 1
  else
    let letters := text.takeWhile Char.isAlpha
    if units.contains letters then letters.length else 0

/-- Takes a number with its unit, given the width of the number. -/
def number (width : Nat) (text : Text) (context : StyleContext) : Move :=
  code .literalDecimalInt (width + unitWidth (text.drop width)) context

/-! ## What is taken is not empty -/

/-- A name is taken. -/
theorem wordOrCall_width_pos (rest : Text) (context : StyleContext) :
    0 < (wordOrCall rest context).width := by
  simp only [wordOrCall, width_code]
  omega

/-- A number has a width. -/
theorem numberWidth?_pos {text : Text} {width : Nat} (h : numberWidth? text = some width) :
    0 < width := by
  simp only [numberWidth?] at h
  split at h
  · cases h
  · cases h
    omega

/-- A number is taken. -/
theorem number_width_pos {width : Nat} (h : 0 < width) (text : Text) (context : StyleContext) :
    0 < (number width text context).width := by
  simp only [number, width_code]
  omega

end LineLexer.Style
