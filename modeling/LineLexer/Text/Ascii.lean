import LineLexer.Text.Basic

/-!
# ASCII character classes

The classes that the three grammars share. `Char.isAlpha`, `Char.isDigit` and `Char.isAlphanum` of
the core library are the ASCII classes and are used as they are. Characters above ASCII form one
class, `isNonAscii`: a grammar either takes all of them as name characters or none.
-/

namespace LineLexer

/-- Blanks are the space, the tab, the form feed and the two line terminators. -/
def isBlank (c : Char) : Bool :=
  c == ' ' || c == '\t' || c == '\x0c' || c == '\r' || c == '\n'

/-- Characters above the ASCII range. -/
def isNonAscii (c : Char) : Bool :=
  128 ≤ c.toNat

/-- Hexadecimal digits in either letter case. -/
def isHexDigit (c : Char) : Bool :=
  c.isDigit || ('a' ≤ c && c ≤ 'f') || ('A' ≤ c && c ≤ 'F')

/-- Octal digits. -/
def isOctalDigit (c : Char) : Bool :=
  '0' ≤ c && c ≤ '7'

/-- A text with its ASCII capitals made small. -/
def foldCase (text : Text) : Text :=
  text.map Char.toLower

/-- Folding the letter case keeps the length. -/
@[simp] theorem length_foldCase (text : Text) : (foldCase text).length = text.length := by
  simp [foldCase]

end LineLexer
