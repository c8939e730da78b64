import LineLexer.Text.Ascii

/-!
# Entity references

A reference is a name between an ampersand and a semicolon, or the code point of a character in
decimal or hexadecimal digits, where the semicolon may be missing.
-/

namespace LineLexer.Markup

/-- The width of a numeric entity reference whose digits start the text, after `lead` characters; a
semicolon belongs to it but is not required. -/
def numericEntityWidth? (isDigit : Char → Bool) (lead : Nat) (text : Text) : Option Nat :=
  let digits := runLength isDigit text
  if digits = 0 then none
  else if (text.drop digits).head? = some ';' then some (lead + digits + 1)
  else some (lead + digits)

/-- The width of a named entity reference whose name starts the text, after one character. The name
starts with a letter, and the semicolon is required. -/
def namedEntityWidth? (text : Text) : Option Nat :=
  let letters := runLength Char.isAlphanum text
  if text.head?.any Char.isAlpha && (text.drop letters).head? == some ';' then some (letters + 2)
  else none

/-- The width of the entity reference that an ampersand before the text starts. -/
def entityWidth? (text : Text) : Option Nat :=
  if text.head? = some '#' then
    if (text.drop 1).head? = some 'x' ∨ (text.drop 1).head? = some 'X' then
      numericEntityWidth? isHexDigit 3 (text.drop 2)
    else numericEntityWidth? Char.isDigit 2 (text.drop 1)
  else namedEntityWidth? text

/-- A numeric entity reference holds what leads it. -/
theorem lt_of_numericEntityWidth? {p : Char → Bool} {lead width : Nat} {text : Text}
    (h : numericEntityWidth? p lead text = some width) : lead < width := by
  simp only [numericEntityWidth?] at h
  split at h
  · cases h
  split at h <;> cases h <;> omega

/-- An entity reference holds its ampersand. -/
theorem entityWidth?_pos {text : Text} {width : Nat} (h : entityWidth? text = some width) :
    0 < width := by
  unfold entityWidth? at h
  split at h
  · split at h
    · exact Nat.zero_lt_of_lt (lt_of_numericEntityWidth? h)
    · exact Nat.zero_lt_of_lt (lt_of_numericEntityWidth? h)
  · simp only [namedEntityWidth?] at h
    split at h <;> cases h
    exact Nat.succ_pos _

end LineLexer.Markup
