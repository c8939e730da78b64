import LineLexer.Text.Ascii

/-!
# Parts of numbers

The parts that numbers of style sheets and of scripts are made of, each measured at the head of a
text and zero characters wide if it is not there.
-/

namespace LineLexer

/-- The width of the sign that starts a text. -/
def signWidth (text : Text) : Nat :=
  if text.head? = some '+' ∨ text.head? = some '-' then 1 else 0

/-- The width of the decimal digits that start a text. -/
def digitsWidth (text : Text) : Nat :=
  runLength Char.isDigit text

/-- The width of the point that starts a text together with the digits after it. -/
def fractionWidth (text : Text) : Nat :=
  if text.head? = some '.' then 1 + digitsWidth (text.drop 1) else 0

end LineLexer
