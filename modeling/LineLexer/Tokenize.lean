import LineLexer.Scan
import LineLexer.State.Describe
import LineLexer.Token

/-!
# Tokenizing lines

`tokenize` is the library's main function: the tokens of one line, given the offset of its first
byte and the state that the line before ended in. Nothing else passes from line to line.
`tokenizeAt` is the same for an offset that is a machine word, with words for the offsets of the
tokens: those past the last word start over at zero. `Session` is the state of a host that goes
through a document from line to line.
-/

namespace LineLexer

/-- What a scope is called in a description of options. -/
def LinkScope.label : LinkScope → String
  | off => "Off"
  | comments => "Comments"
  | commentsAndStrings => "CommentsAndStrings"

/-- The options of the lexer in words. -/
def LinkScope.describe (scope : LinkScope) : Text :=
  withField "LexerOptions" "hyperlinks" scope.label.toList

/-- The tokens of a line and the state for the line after it. -/
structure Lexed where
  tokens : List Token
  finish : ResumeState
  deriving DecidableEq, Repr

/-- The number of tokens in words. -/
def Lexed.describe (lexed : Lexed) : Text :=
  "TokenList(".toList ++ decimalText lexed.tokens.length ++ " tokens)".toList

/-- The tokens of a line that starts at an offset and in a state. -/
def tokenize (scope : LinkScope) (line : Text) (offset : Nat) (state : ResumeState) : Lexed :=
  let scanned := scan .start state line
  ⟨placeFrom offset (scanned.spans.flatMap (Span.split scope)), scanned.finish⟩

/-- Tokens at the machine words of their offsets. -/
def Lexed.wrap (lexed : Lexed) : Lexed :=
  { lexed with tokens := lexed.tokens.map Token.wrap }

/-- The tokens of a line that starts at a machine word and in a state, at machine words. -/
def tokenizeAt (scope : LinkScope) (line : Text) (base : UInt64) (state : ResumeState) : Lexed :=
  (tokenize scope line base.toNat state).wrap

/-- The tokens of a line that starts in the state of a word. -/
def tokenizeWord (scope : LinkScope) (line : Text) (offset : Nat) (raw : UInt32) :
    Except StateFault Lexed :=
  (ResumeState.decode raw).map (tokenize scope line offset)

/-! ## Sessions -/

/-- A host's place in a document: the scope it looks for links in, the offset of the next line and
the state that the next line starts in. -/
structure Session where
  scope : LinkScope
  offset : Nat
  state : ResumeState
  deriving DecidableEq, Repr

namespace Session

/-- The start of a document. -/
def start (scope : LinkScope) : Session := ⟨scope, 0, .initial⟩

/-- Tokenizes the next line and steps over it and its terminator of one byte. -/
def line (session : Session) (text : Text) : Lexed × Session :=
  let lexed := tokenize session.scope text session.offset session.state
  (lexed, { session with offset := session.offset + byteLength text + 1, state := lexed.finish })

/-- Goes on in the state of a word, which must be one. -/
def resume (session : Session) (raw : UInt32) : Except StateFault Session :=
  (ResumeState.decode raw).map fun state => { session with state := state }

end Session

end LineLexer
