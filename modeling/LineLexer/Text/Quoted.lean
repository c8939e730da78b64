import LineLexer.Text.Printable
import LineLexer.Text.GraphemeExtend
import LineLexer.Text.Numeral

/-!
# Quoted texts

A text between double quotes on one line. The double quote, the backslash and four control
characters have an escape of two characters; any other character that is not printable, or that
would be drawn onto the quote before it, is written as its code point in braces; the rest, the
single quote included, stands for itself.
-/

namespace LineLexer

/-- A character as it stands between double quotes. -/
def quotedChar (c : Char) : Text :=
  if c = '"' then ['\\', '"']
  else if c = '\\' then ['\\', '\\']
  else if c = '\t' then ['\\', 't']
  else if c = '\n' then ['\\', 'n']
  else if c = '\r' then ['\\', 'r']
  else if c = '\x00' then ['\\', '0']
  else if isPrintable c && !isDrawnOnPrevious c then [c]
  else '\\' :: 'u' :: '{' :: (hexText c.toNat ++ ['}'])

/-- A text between double quotes. -/
def quoted (text : Text) : Text :=
  '"' :: (text.flatMap quotedChar ++ ['"'])

end LineLexer
