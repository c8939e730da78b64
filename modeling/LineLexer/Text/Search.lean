import LineLexer.Text.Ascii

/-!
# Looking for a text in a text

`indexOf?` is the leftmost occurrence of a needle, and `widthThrough?` the width of all that goes
up to and including it, which is how a construct with a closing delimiter is measured.
-/

namespace LineLexer

/-- Whether a text starts with `head`, letter case aside. -/
def startsWithFolded (head text : Text) : Bool :=
  foldCase (text.take head.length) == foldCase head

/-- The number of characters before the leftmost occurrence of a needle. -/
def indexOf? (needle : Text) : Text → Option Nat
  | [] => if needle.isEmpty then some 0 else none
  | c :: rest =>
    if needle.isPrefixOf (c :: rest) then some 0 else (indexOf? needle rest).map (· + 1)

/-- The number of characters through the end of the leftmost occurrence of a delimiter. -/
def widthThrough? (delimiter text : Text) : Option Nat :=
  (indexOf? delimiter text).map (· + delimiter.length)

/-- What is measured through a delimiter is at least as wide as the delimiter. -/
theorem length_le_of_widthThrough? {delimiter text : Text} {n : Nat}
    (h : widthThrough? delimiter text = some n) : delimiter.length ≤ n := by
  obtain ⟨i, _, rfl⟩ := Option.map_eq_some_iff.1 h
  exact Nat.le_add_left ..

end LineLexer
