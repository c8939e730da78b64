import LineLexer.Text.Basic

/-!
# Sets of characters as ranges

A property of characters that follows no short rule is a list of ranges of code points, both ends
included, in rising order. The tables of the library are written from U+0080 on; below that, each
property is said by its rule.
-/

namespace LineLexer

/-- Whether a character lies in one of the ranges. -/
def inRanges (ranges : List (Nat × Nat)) (c : Char) : Bool :=
  ranges.any fun range => range.1 ≤ c.toNat && c.toNat ≤ range.2

end LineLexer
