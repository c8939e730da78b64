import LineLexer.Link
import LineLexer.Span
import LineLexer.Text.Quoted

/-!
# Tokens

A token is a span at its place in the document. Spans become tokens in two steps: a span that holds
a link is split around it, and then each part gets the offset at which it starts. A split keeps the
kind and language, and the part after a link is there even if it is empty.

Offsets count up without an end here. In a document they are machine words, which start over at zero
past the last one (`Token.wrap`).
-/

namespace LineLexer

/-- A classified part of a line at its byte offset in the document. -/
structure Token where
  kind : Kind
  language : Language
  offset : Nat
  text : Text
  flags : Flags
  deriving DecidableEq, Repr

namespace Token

/-! ## Queries -/

/-- The length of a token in bytes. -/
def length (token : Token) : Nat :=
  byteLength token.text

/-- The offset of the first byte after a token. -/
def stop (token : Token) : Nat :=
  token.offset + token.length

/-- The offset of a token as a machine word. -/
def word (token : Token) : UInt64 :=
  UInt64.ofNat token.offset

/-- The machine word after that of a token's last byte. -/
def stopWord (token : Token) : UInt64 :=
  token.word + UInt64.ofNat token.length

/-- A token at the machine word of its offset. -/
def wrap (token : Token) : Token :=
  { token with offset := token.word.toNat }

/-- Whether a token has no text; only the part after a link may be so. -/
def isEmpty (token : Token) : Bool :=
  token.text.isEmpty

/-- Whether a token is of blanks. -/
def isWhitespace (token : Token) : Bool :=
  token.kind == .whitespace

/-- Whether a token has text to show. -/
def isPaintable (token : Token) : Bool :=
  !token.text.isEmpty

/-- Whether a token is a link. -/
def isLink (token : Token) : Bool :=
  token.flags.isLink

/-- Whether a token is of a kind and has exactly a text. -/
def isText (token : Token) (kind : Kind) (text : Text) : Bool :=
  token.kind == kind && token.text == text

/-- Whether a token is of a kind and its text is a single character. -/
def isChar (token : Token) (kind : Kind) (c : Char) : Bool :=
  token.isText kind [c]

/-- A token on one line: its offset, its kind, its text in quotes, and its flags if it has any. -/
def describe (token : Token) : Text :=
  decimalText token.offset ++ ':' :: (token.kind.name.toList ++ ' ' :: quoted token.text)
    ++ if token.flags = .empty then [] else ' ' :: '[' :: (token.flags.describe ++ [']'])

end Token

/-! ## From spans to tokens -/

namespace Span

/-- The part of a span from one place for a number of characters, with flags of its own. -/
def part (span : Span) (start width : Nat) (flags : Flags) : Span :=
  { span with text := (span.text.drop start).take width, flags := flags }

/-- Splits a span around the first link that it holds, if its kind is in scope. -/
def split (scope : LinkScope) (span : Span) : List Span :=
  if scope.appliesTo span.kind then
    match Link.find? span.text with
    | none => [span]
    | some (start, width) =>
      -- The part before the link is dropped if it is empty, the part after it is not.
      (if start = 0 then [] else [span.part 0 start span.flags])
        ++ [span.part start width (span.flags.set Flags.linkBit),
          span.part (start + width) span.text.length span.flags]
  else [span]

/-- The token of a span at an offset. -/
def place (span : Span) (offset : Nat) : Token :=
  ⟨span.kind, span.language, offset, span.text, span.flags⟩

end Span

/-- The tokens of spans that follow each other from an offset on. -/
def placeFrom (offset : Nat) : List Span → List Token
  | [] => []
  | span :: spans => span.place offset :: placeFrom (offset + byteLength span.text) spans

end LineLexer
