import LineLexer.Kind
import LineLexer.Text.Ascii

/-!
# Regular expressions

A slash starts a regular expression where no value stands before it and where the line holds the
slash that closes the pattern. Otherwise it is an operator.
-/

namespace LineLexer.Script

/-- Whether a slash after a piece of code starts a regular expression and not a division: at the
start of a line, after a keyword, after an operator that ends in an equals sign or a tilde, and
after one of some single characters. -/
def regexMayFollow : Option (Kind × Text) → Bool
  | none => true
  | some (kind, text) =>
    kind == .reservedWord || kind == .reservedWord2
      || (kind == .operator && (text.getLast? == some '=' || text.getLast? == some '~'))
      || (text.length == 1 && text.all fun c => "=(,?:[!&|;{}".toList.contains c)

/-- The number of characters through the slash that closes a pattern; a slash after a backslash or
in a character class does not. -/
def patternWidth? (inClass : Bool) : Text → Option Nat
  | [] => none
  | [c] => if c = '/' ∧ inClass = false then some 1 else none
  | c :: d :: rest =>
    if c = '\\' then (patternWidth? inClass rest).map (· + 2)
    else if c = '/' ∧ inClass = false then some 1
    else (patternWidth? (c == '[' || (c != ']' && inClass)) (d :: rest)).map (· + 1)

/-- The number of characters of a regular expression with its flags, given the text after its
opening slash. -/
def regexWidth? (rest : Text) : Option Nat :=
  (patternWidth? false rest).map fun width => 1 + width + runLength Char.isAlpha (rest.drop width)

/-- A regular expression holds its opening slash. -/
theorem regexWidth?_pos {rest : Text} {width : Nat} (h : regexWidth? rest = some width) :
    0 < width := by
  obtain ⟨_, _, rfl⟩ := Option.map_eq_some_iff.1 h
  omega

end LineLexer.Script
