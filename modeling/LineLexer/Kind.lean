/-!
# Token kinds

One flat set of kinds serves the three grammars. Each kind has a numeric tag; the tags are grouped
in ranges, so that the queries `isLiteral`, `isMarkup` and `isError` are comparisons of tags.
-/

namespace LineLexer

/-- The classification of a token; attributes such as being a link are flags instead. -/
inductive Kind where
  | whitespace
  /-- Plain words, text runs and the script punctuation `;`, `,` and `.`. -/
  | identifier
  /-- Keywords of the first tier, style property names and pseudo-classes. -/
  | reservedWord
  /-- Keywords of the second tier. -/
  | reservedWord2
  /-- Primitive type names and style selectors. -/
  | dataType
  /-- Builtin functions and style calls. -/
  | functionName
  /-- Style id selectors and template interpolations. -/
  | variableName
  /-- The style `!important`. -/
  | preprocessor
  /-- Script regular expressions and style at-rules. -/
  | regex
  | literalBoolean
  | literalChar
  | literalStringDouble
  /-- Decimal integers, style numbers with their units, and hexadecimal colours. -/
  | literalDecimalInt
  | literalHexInt
  | literalFloat
  | literalBackquote
  | operator
  | separator
  | commentEol
  | commentMultiline
  | markupTagDelimiter
  | markupTagName
  | markupTagAttribute
  | markupTagAttributeValue
  | markupComment
  | markupDtd
  | markupProcessingInstruction
  | markupEntityReference
  /-- A single-quoted literal with a malformed escape or without a closing quote. -/
  | errorChar
  /-- A double-quoted literal or template with a malformed escape or without an end. -/
  | errorString
  /-- A number with word characters glued to it. -/
  | errorNumber
  deriving DecidableEq, Repr

namespace Kind

/-- Every kind, in the order of the tags. -/
def all : List Kind :=
  [whitespace, identifier, reservedWord, reservedWord2, dataType, functionName, variableName,
    preprocessor, regex, literalBoolean, literalChar, literalStringDouble, literalDecimalInt,
    literalHexInt, literalFloat, literalBackquote, operator, separator, commentEol,
    commentMultiline, markupTagDelimiter, markupTagName, markupTagAttribute,
    markupTagAttributeValue, markupComment, markupDtd, markupProcessingInstruction,
    markupEntityReference, errorChar, errorString, errorNumber]

/-- The numeric tag of a kind. -/
def tag : Kind → Nat
  | whitespace => 0
  | identifier => 8
  | reservedWord => 9
  | reservedWord2 => 10
  | dataType => 11
  | functionName => 12
  | variableName => 13
  | preprocessor => 14
  | regex => 15
  | literalBoolean => 16
  | literalChar => 17
  | literalStringDouble => 18
  | literalDecimalInt => 19
  | literalHexInt => 20
  | literalFloat => 21
  | literalBackquote => 22
  | operator => 32
  | separator => 33
  | commentEol => 40
  | commentMultiline => 41
  | markupTagDelimiter => 48
  | markupTagName => 49
  | markupTagAttribute => 50
  | markupTagAttributeValue => 51
  | markupComment => 52
  | markupDtd => 53
  | markupProcessingInstruction => 54
  | markupEntityReference => 55
  | errorChar => 240
  | errorString => 241
  | errorNumber => 242

/-- The stable name of a kind, as dumps write it. -/
def name : Kind → String
  | whitespace => "whitespace"
  | identifier => "identifier"
  | reservedWord => "reserved-word"
  | reservedWord2 => "reserved-word-2"
  | dataType => "data-type"
  | functionName => "function"
  | variableName => "variable"
  | preprocessor => "preprocessor"
  | regex => "regex"
  | literalBoolean => "literal-boolean"
  | literalChar => "literal-char"
  | literalStringDouble => "literal-string"
  | literalDecimalInt => "literal-decimal"
  | literalHexInt => "literal-hex"
  | literalFloat => "literal-float"
  | literalBackquote => "literal-backquote"
  | operator => "operator"
  | separator => "separator"
  | commentEol => "comment-eol"
  | commentMultiline => "comment-multiline"
  | markupTagDelimiter => "tag-delimiter"
  | markupTagName => "tag-name"
  | markupTagAttribute => "tag-attribute"
  | markupTagAttributeValue => "tag-attribute-value"
  | markupComment => "markup-comment"
  | markupDtd => "markup-dtd"
  | markupProcessingInstruction => "markup-pi"
  | markupEntityReference => "entity-reference"
  | errorChar => "error-char"
  | errorString => "error-string"
  | errorNumber => "error-number"

/-- The name of a kind as one capitalised word. -/
def label : Kind → String
  | whitespace => "Whitespace"
  | identifier => "Identifier"
  | reservedWord => "ReservedWord"
  | reservedWord2 => "ReservedWord2"
  | dataType => "DataType"
  | functionName => "Function"
  | variableName => "Variable"
  | preprocessor => "Preprocessor"
  | regex => "Regex"
  | literalBoolean => "LiteralBoolean"
  | literalChar => "LiteralChar"
  | literalStringDouble => "LiteralStringDouble"
  | literalDecimalInt => "LiteralDecimalInt"
  | literalHexInt => "LiteralHexInt"
  | literalFloat => "LiteralFloat"
  | literalBackquote => "LiteralBackquote"
  | operator => "Operator"
  | separator => "Separator"
  | commentEol => "CommentEol"
  | commentMultiline => "CommentMultiline"
  | markupTagDelimiter => "MarkupTagDelimiter"
  | markupTagName => "MarkupTagName"
  | markupTagAttribute => "MarkupTagAttribute"
  | markupTagAttributeValue => "MarkupTagAttributeValue"
  | markupComment => "MarkupComment"
  | markupDtd => "MarkupDtd"
  | markupProcessingInstruction => "MarkupProcessingInstruction"
  | markupEntityReference => "MarkupEntityReference"
  | errorChar => "ErrorChar"
  | errorString => "ErrorString"
  | errorNumber => "ErrorNumber"

/-- The kind of a stable name. -/
def ofName? (name : String) : Option Kind :=
  all.find? (·.name == name)

/-- Comments of all three grammars. -/
def isComment : Kind → Bool
  | commentEol | commentMultiline | markupComment => true
  | _ => false

/-- Literals that hold quoted text, attribute values and the error forms included. -/
def isStringLike : Kind → Bool
  | literalChar | literalStringDouble | literalBackquote | markupTagAttributeValue | errorChar
  | errorString => true
  | _ => false

/-- Literals, which carry the tags from 16 to 23. -/
def isLiteral (kind : Kind) : Bool :=
  16 ≤ kind.tag && kind.tag < 24

/-- Markup constructs, which carry the tags from 48 to 55. -/
def isMarkup (kind : Kind) : Bool :=
  48 ≤ kind.tag && kind.tag < 56

/-- Errors, which carry the tags from 240 on. -/
def isError (kind : Kind) : Bool :=
  240 ≤ kind.tag

/-- Every kind is listed. -/
theorem mem_all (kind : Kind) : kind ∈ all := by
  cases kind <;> decide

end Kind

end LineLexer
