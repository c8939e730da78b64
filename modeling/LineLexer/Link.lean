import LineLexer.Flags
import LineLexer.Kind
import LineLexer.Text.Ascii

/-!
# Links

Comments, and on demand literals, are searched for the first link that they hold. A link starts with
one of five marks that no letter or digit stands before, and runs over link characters; punctuation
at its end belongs to the prose around it. A mark with nothing after it is no link, and the search
goes on behind it.
-/

namespace LineLexer

/-- The kinds of tokens that are searched for links. -/
inductive LinkScope where
  | off
  | comments
  | commentsAndStrings
  deriving DecidableEq, Repr

/-- Whether tokens of a kind are searched for links. -/
def LinkScope.appliesTo : LinkScope → Kind → Bool
  | off, _ => false
  | comments, kind => kind.isComment
  | commentsAndStrings, kind => kind.isComment || kind.isStringLike

namespace Link

/-- The marks that start a link. -/
def marks : List Text :=
  ["http://".toList, "https://".toList, "ftp://".toList, "file://".toList, "www.".toList]

/-- The characters that a link runs over. -/
def isLinkChar (c : Char) : Bool :=
  c.isAlphanum || "-._~:/?#[]@!$&'()*+,;=%".toList.contains c

/-- The characters that a link may end in. -/
def isLinkEnd (c : Char) : Bool :=
  c.isAlphanum || c == '/' || c == '$'

/-- The width of a run of link characters without the punctuation at its end. -/
def trimmedWidth (run : Text) : Nat :=
  (run.reverse.dropWhile fun c => !isLinkEnd c).length

/-- The width of the link that starts a text. -/
def width? (text : Text) : Option Nat :=
  match marks.find? (·.isPrefixOf text) with
  | none => none
  | some mark =>
    let width := trimmedWidth (text.takeWhile isLinkChar)
    -- A mark whose own end is trimmed away, or that nothing follows, is prose.
    if mark.length < width then some width else none

/-- The place and width of the first link of a text; `free` says that no letter or digit stands
before the text. -/
def findFrom? (free : Bool) : Text → Option (Nat × Nat)
  | [] => none
  | c :: rest =>
    match if free then width? (c :: rest) else none with
    | some width => some (0, width)
    | none => (findFrom? (!c.isAlphanum) rest).map fun found => (found.1 + 1, found.2)

/-- The place and width of the first link of a text. -/
def find? (text : Text) : Option (Nat × Nat) :=
  findFrom? true text

end Link

end LineLexer
