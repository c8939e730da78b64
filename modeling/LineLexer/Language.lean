import LineLexer.Text.Alphanumeric

/-!
# The three languages

Markup is the host language; style sheets and scripts are embedded in it. The queries describe a
language without lexing anything: what a host needs to toggle comments, fold blocks and select
words. Each query also has a form on indices, for hosts that know a language only by its number;
there an unknown index answers as a language that has no such thing.
-/

namespace LineLexer

/-- The languages that tokens belong to. -/
inductive Language where
  | markup
  | style
  | script
  deriving DecidableEq, Repr

namespace Language

/-- The number of a language. -/
def index : Language → Nat
  | markup => 0
  | style => 1
  | script => 2

/-- The language of a number. -/
def ofIndex? : Nat → Option Language
  | 0 => some markup
  | 1 => some style
  | 2 => some script
  | _ => none

/-- The name of a language. -/
def name : Language → String
  | markup => "markup"
  | style => "style"
  | script => "script"

/-- The name of a language, capitalised. -/
def label : Language → String
  | markup => "Markup"
  | style => "Style"
  | script => "Script"

/-! ## Queries -/

/-- The delimiters that comment out a stretch of text. -/
def blockComment? : Language → Option (Text × Text)
  | markup => some ("<!--".toList, "-->".toList)
  | style => some ("/*".toList, "*/".toList)
  | script => none

/-- The mark that comments out the rest of a line. -/
def lineComment? : Language → Option Text
  | script => some "//".toList
  | markup | style => none

/-- Whether braces delimit blocks that can be folded. -/
def bracesFold : Language → Bool
  | markup => false
  | style | script => true

/-- The characters besides letters and numbers that identifiers take. -/
def identifierMarks : Language → List Char
  | markup => ['-', '_', ':', '.']
  | style => ['-', '_', '.']
  | script => ['_', '$']

/-- Whether a character can be part of an identifier. -/
def isIdentifierChar (language : Language) (c : Char) : Bool :=
  isAlphanumeric c || language.identifierMarks.contains c

/-! ## Queries on indices -/

/-- The delimiters that comment out a stretch of text, by the index of the language. -/
def blockCommentAt? (index : Nat) : Option (Text × Text) :=
  (ofIndex? index).bind blockComment?

/-- Whether braces delimit blocks that can be folded, by the index of the language. -/
def bracesFoldAt (index : Nat) : Bool :=
  (ofIndex? index).any bracesFold

/-- Whether a character can be part of an identifier, by the index of the language. -/
def isIdentifierCharAt (index : Nat) (c : Char) : Bool :=
  (ofIndex? index).any (isIdentifierChar · c)

end Language

end LineLexer
