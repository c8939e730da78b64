import LineLexer.Text.Basic

/-!
# Script operators

The operators of more than one character, longest first, so that the first one that a text starts
with is the longest. Any other operator character is an operator by itself.
-/

namespace LineLexer

/-- The operators of more than one character, longest first. -/
def operators : List Text :=
  [">>>=", "===", "!==", "<<=", ">>=", ">>>", "**=", "&&=", "||=", "??=", "==", "!=", "<=", ">=",
    "&&", "||", "??", "?.", "++", "--", "+=", "-=", "*=", "/=", "%=", "&=", "|=", "^=", "<<", ">>",
    "**", "=>"].map String.toList

/-- The number of characters of the operator that starts a text. -/
def operatorWidth (text : Text) : Nat :=
  match operators.find? (·.isPrefixOf text) with
  | some operator => operator.length
  | none => 1

/-- No operator is empty. -/
theorem operators_ne_nil {operator : Text} (h : operator ∈ operators) : operator ≠ [] := by
  revert operator
  decide

/-- An operator has a width. -/
theorem operatorWidth_pos (text : Text) : 0 < operatorWidth text := by
  unfold operatorWidth
  split
  next operator h => exact List.length_pos_iff.2 (operators_ne_nil (List.mem_of_find?_eq_some h))
  next => exact Nat.one_pos

end LineLexer
