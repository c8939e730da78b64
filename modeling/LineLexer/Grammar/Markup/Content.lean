import LineLexer.Grammar.ClosingTag
import LineLexer.Grammar.Markup.Basic
import LineLexer.Grammar.Markup.Entity
import LineLexer.Vocabulary.Elements

/-!
# Text content of markup

Outside tags, markup holds blanks, entity references, plain text, and what an opening bracket
starts: a tag with its name, a comment, a declaration or a processing instruction. A bracket or
ampersand that starts nothing is plain text.
-/

namespace LineLexer.Markup

/-- The first characters of tag names. -/
def isNameStart (c : Char) : Bool :=
  c.isAlpha || isNonAscii c

/-- The characters that go on with plain text. -/
def isTextChar (c : Char) : Bool :=
  !isBlank c && c != '<' && c != '&'

/-- Takes plain text: one character whatever it is, then those up to a blank, a bracket or an
ampersand. -/
def textRun (rest : Text) : Move :=
  one .identifier (runLength isTextChar rest + 1) .content

/-- The flags of a tag name: whether it is the name of an element. -/
def nameFlags (name : Text) : Flags :=
  .ofKnown (elements.contains name)

/-- Takes the opening bracket of a tag, of a given width, and the name that follows. -/
def tagStart (bracket : Nat) (name : Text) (next : MarkupState) : Move :=
  ⟨[piece .markupTagDelimiter bracket, ⟨.markupTagName, name.length, .markup, nameFlags name⟩],
    .markup next⟩

/-- Takes what an opening bracket starts, given the text after it. A bracket that starts nothing is
plain text. -/
def opening (rest : Text) : Move :=
  -- A comment is also a declaration by its first two characters, so it is tried before.
  if "!--".toList.isPrefixOf rest then comment 4 (rest.drop 3)
  else if rest.head? = some '!' then doctype 2 (rest.drop 1)
  else if rest.head? = some '?' then instruction 2 (rest.drop 1)
  else if rest.head? = some '/' ∧ (rest.drop 1).head?.any isNameStart then
    tagStart 2 ((rest.drop 1).takeWhile isTagNameChar) .endTag
  else if rest.head?.any isNameStart then
    let name := rest.takeWhile isTagNameChar
    tagStart 1 name (.startTag (TagKind.ofName name))
  else textRun rest

/-- The move in text content. -/
def content (c : Char) (rest : Text) : Move :=
  if isBlank c then blanks rest .content
  else if c = '<' then opening rest
  else if c = '&' then
    match entityWidth? rest with
    | some width => one .markupEntityReference width .content
    | none => textRun rest
  else textRun rest

/-! ## What is taken is not empty -/

/-- Plain text is not empty. -/
theorem textRun_width_pos (rest : Text) : 0 < (textRun rest).width := by
  simp only [textRun, width_one]
  omega

/-- A tag start holds its bracket. -/
theorem tagStart_width_pos {bracket : Nat} (h : 0 < bracket) (name : Text) (next : MarkupState) :
    0 < (tagStart bracket name next).width := by
  simp only [tagStart, Move.width_pair, piece]
  omega

/-- What a bracket opens holds the bracket. -/
theorem opening_width_pos (rest : Text) : 0 < (opening rest).width := by
  unfold opening
  split
  · exact delimited_width_pos (by decide) _ _ _ (by simp)
  split
  · exact delimited_width_pos (by decide) _ _ _ (by simp)
  split
  · exact delimited_width_pos (by decide) _ _ _ (by simp)
  split
  · exact tagStart_width_pos (by decide) _ _
  split
  · exact tagStart_width_pos (by decide) _ _
  · exact textRun_width_pos rest

/-- A move in text content takes something. -/
theorem content_width_pos (c : Char) (rest : Text) : 0 < (content c rest).width := by
  unfold content
  split
  · simp only [blanks, width_one]
    omega
  split
  · exact opening_width_pos rest
  split
  · split
    next h =>
      simp only [width_one]
      exact entityWidth?_pos h
    next => exact textRun_width_pos rest
  · exact textRun_width_pos rest

end LineLexer.Markup
