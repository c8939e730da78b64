import LineLexer.Grammar.Number
import LineLexer.Grammar.Script.Basic

/-!
# Numbers in scripts

Decimal, hexadecimal and floating-point numbers. A number is read as far as its form goes; word
characters glued to it make the whole an error.
-/

namespace LineLexer.Script

/-- The width of the exponent that starts a text; its mark needs a digit after the sign. -/
def exponentWidth (text : Text) : Nat :=
  if text.head? = some 'e' ∨ text.head? = some 'E' then
    let sign := signWidth (text.drop 1)
    let digits := digitsWidth (text.drop (1 + sign))
    if digits = 0 then 0 else 1 + sign + digits
  else 0

/-- The kind and width of the suffix that ends a decimal number. -/
def decimalSuffix (isFloat : Bool) (text : Text) : Kind × Nat :=
  match text.head? with
  | some c =>
    if c = 'f' || c = 'F' || c = 'd' || c = 'D' then (.literalFloat, 1)
    else if isFloat then (.literalFloat, 0)
    else (.literalDecimalInt, if c = 'l' || c = 'L' then 1 else 0)
  | none => (if isFloat then .literalFloat else .literalDecimalInt, 0)

/-- The kind and width of the decimal number that starts a text. -/
def decimal (text : Text) : Kind × Nat :=
  let whole := digitsWidth text
  let fraction := fractionWidth (text.drop whole)
  let exponent := exponentWidth (text.drop (whole + fraction))
  let width := whole + fraction + exponent
  -- A point or an exponent makes the number a float, and then it takes no integer suffix.
  let suffix := decimalSuffix (0 < fraction || 0 < exponent) (text.drop width)
  (suffix.1, width + suffix.2)

/-- The kind and width of a hexadecimal number, given the text after its two-character mark. -/
def hexadecimal (rest : Text) : Kind × Nat :=
  let digits := runLength isHexDigit rest
  let next := (rest.drop digits).head?
  if digits = 0 then (.errorNumber, 2)
  else (.literalHexInt, 2 + digits + (if next = some 'l' ∨ next = some 'L' then 1 else 0))

/-- The kind and width of the number that starts a text, whatever follows it. -/
def numeral (c : Char) (rest : Text) : Kind × Nat :=
  if c = '0' ∧ (rest.head? = some 'x' ∨ rest.head? = some 'X') then hexadecimal (rest.drop 1)
  else decimal (c :: rest)

/-- Takes a number; word characters glued to it make the whole an error. -/
def number (c : Char) (rest : Text) : Move :=
  let found := numeral c rest
  let glued := runLength isWordChar ((c :: rest).drop found.2)
  one (if glued = 0 then found.1 else .errorNumber) (found.2 + glued) .code

/-- A number is one piece, of a kind of numbers. -/
theorem exists_number_eq (c : Char) (rest : Text) :
    ∃ kind width, kind ∈ [Kind.literalDecimalInt, .literalHexInt, .literalFloat, .errorNumber] ∧
      number c rest = one kind width .code := by
  have hdecimal : (decimal (c :: rest)).1 ∈
      [Kind.literalDecimalInt, .literalHexInt, .literalFloat, .errorNumber] := by
    simp only [decimal, decimalSuffix]
    repeat' split
    all_goals decide
  have hnumeral : (numeral c rest).1 ∈
      [Kind.literalDecimalInt, .literalHexInt, .literalFloat, .errorNumber] := by
    unfold numeral
    split
    · simp only [hexadecimal]
      split <;> simp
    · exact hdecimal
  refine ⟨_, _, ?_, rfl⟩
  split
  · exact hnumeral
  · decide

/-- A number is not empty. -/
theorem number_width_pos {c : Char} {rest : Text}
    (h : (c.isDigit || (c == '.' && rest.head?.any Char.isDigit)) = true) :
    0 < (number c rest).width := by
  have hn : 0 < (numeral c rest).2 := by
    unfold numeral
    split
    · simp only [hexadecimal]
      split <;> simp only <;> omega
    · by_cases hd : c.isDigit = true
      · have : 0 < digitsWidth (c :: rest) := runLength_pos rest hd
        simp only [decimal]
        omega
      · simp only [hd, Bool.false_or, Bool.and_eq_true, beq_iff_eq] at h
        obtain ⟨rfl, -⟩ := h
        have h0 : digitsWidth ('.' :: rest) = 0 := by
          simp [digitsWidth, runLength]
        have : 0 < fractionWidth ('.' :: rest) := by
          simp only [fractionWidth, List.head?_cons, ↓reduceIte]
          omega
        simp only [decimal, h0, List.drop_zero]
        omega
  simp only [number, width_one]
  omega

end LineLexer.Script
