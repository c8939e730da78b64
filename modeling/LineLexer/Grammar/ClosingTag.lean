import LineLexer.Grammar.Move
import LineLexer.Text.Search

/-!
# The closing tags of embedded languages

A style sheet or script ends at the closing tag of its element, in any letter case, unless more name
characters follow. `atClosingTag` tests the head of a text and `closingTagIndex?` looks for the
first place where that test holds. The tag ends the embedded language from code and from comments
alike: `commentWidth?` measures a comment that ends at its delimiter or before the tag.
-/

namespace LineLexer

/-- Characters of tag names in markup. -/
def isTagNameChar (c : Char) : Bool :=
  c.isAlphanum || c == '-' || c == '_' || c == ':' || c == '.' || isNonAscii c

/-- The start of the closing tag of a script. -/
def scriptTag : Text := "</script".toList

/-- The start of the closing tag of a style sheet. -/
def styleTag : Text := "</style".toList

/-- Whether a text starts with a closing tag. -/
def atClosingTag (tag text : Text) : Bool :=
  startsWithFolded tag text && !(text.drop tag.length).head?.any isTagNameChar

/-- The number of characters before the first closing tag; only brackets are looked at. -/
def closingTagIndex? (tag : Text) : Text → Option Nat
  | [] => none
  | c :: rest =>
    if c == '<' && atClosingTag tag (c :: rest) then some 0
    else (closingTagIndex? tag rest).map (· + 1)

/-- The move at a closing tag: its bracket with the slash, its name, and on in the end tag. -/
def closeElement (tag : Text) : Move :=
  ⟨[⟨.markupTagDelimiter, 2, .markup, .empty⟩,
    ⟨.markupTagName, tag.length - 2, .markup, .empty⟩], .markup .endTag⟩

/-- A closing tag is taken. -/
theorem closeElement_width_pos (tag : Text) : 0 < (closeElement tag).width := by
  simp only [closeElement, Move.width_pair]
  omega

/-- The number of characters of a comment's body, through its delimiter or up to the closing tag,
whichever comes first; none if the comment stays open. -/
def commentWidth? (tag body : Text) : Option Nat :=
  match indexOf? "*/".toList body, closingTagIndex? tag body with
  | some delimiter, some index => some (if index < delimiter then index else delimiter + 2)
  | some delimiter, none => some (delimiter + 2)
  | none, some index => some index
  | none, none => none

end LineLexer
