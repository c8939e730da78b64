import LineLexer.Grammar.Markup.Basic

/-!
# Tags

After its name, a start tag holds attributes, equals signs and values, and an end tag holds words
without a meaning. A start tag of a script or style element hands over to that language. An opening
bracket breaks off either tag: the tag takes nothing and text content goes on with the bracket.
-/

namespace LineLexer.Markup

/-- The characters that go on with a word in a start tag. -/
def isAttributeChar (c : Char) : Bool :=
  !isBlank c && c != '=' && c != '>' && c != '<' && c != '/' && c != '"' && c != '\''

/-- The move in a start tag. A word is a value if the last piece before it that is not blank is an
operator, and an attribute otherwise; an opening bracket breaks the tag off. -/
def startTag (afterOperator : Bool) (tag : TagKind) (c : Char) (rest : Text) : Move :=
  if isBlank c then blanks rest (.startTag tag)
  -- A tag that ends with a slash has no content, so it hands over to no language.
  else if c = '/' && rest.head? = some '>' then one .markupTagDelimiter 2 .content
  else if c = '>' then ⟨[piece .markupTagDelimiter 1], .ofElement tag⟩
  else if c = '=' then one .operator 1 (.startTag tag)
  -- A new tag starts before this one has ended: it is broken off, and nothing is taken.
  else if c = '<' then ⟨[], .markup .content⟩
  else
    match Quote.ofChar? c with
    | some quote => attributeValue quote tag 1 rest
    | none =>
      one (if afterOperator then .markupTagAttributeValue else .markupTagAttribute)
        (runLength isAttributeChar rest + 1) (.startTag tag)

/-- The characters that go on with a word in an end tag. -/
def isEndTagChar (c : Char) : Bool :=
  !isBlank c && c != '>' && c != '<'

/-- The move in an end tag, after its name. -/
def endTag (c : Char) (rest : Text) : Move :=
  if isBlank c then blanks rest .endTag
  else if c = '>' then one .markupTagDelimiter 1 .content
  else if c = '<' then ⟨[], .markup .content⟩
  else one .markupTagAttribute (runLength isEndTagChar rest + 1) .endTag

end LineLexer.Markup
