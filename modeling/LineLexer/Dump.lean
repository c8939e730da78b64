import LineLexer.Tokenize

/-!
# Dumps of documents

A dump writes every token of a document on a row of its own, and after the tokens of each line a row
with the state at its end. Line terminators belong to no token but count in the offsets. The state
rows make a dump resumable: the rest of a document is dumped alike when the dump starts in the state
that the last row shows.
-/

namespace LineLexer

/-! ## Lines of a document -/

/-- Splits a document after each line feed; the terminators stay with their lines. -/
def terminatedLines : Text → List Text
  | [] => []
  | c :: rest =>
    if c = '\n' then [c] :: terminatedLines rest
    else
      match terminatedLines rest with
      | [] => [[c]]
      | line :: lines => (c :: line) :: lines

/-- A line without the line feeds and carriage returns at its end. -/
def trimTerminators (line : Text) : Text :=
  (line.reverse.dropWhile fun c => c == '\n' || c == '\r').reverse

/-! ## Options -/

/-- How a document is dumped: where links are looked for, and the state that it starts in. -/
structure DumpOptions where
  scope : LinkScope
  start : ResumeState
  deriving DecidableEq, Repr

namespace DumpOptions

/-- The options without any flag. -/
def standard : DumpOptions := ⟨.comments, .initial⟩

/-- The options in words. -/
def describe (options : DumpOptions) : Text :=
  "LexOptions \x7b lexer: ".toList ++ options.scope.describe ++ ", start_state: ".toList
    ++ options.start.describe ++ " \x7d".toList

end DumpOptions

/-- What is wrong with a flag. -/
inductive OptionFault where
  /-- No flag is spelled so. -/
  | unknown (flag : Text)
  /-- The state is not a number. -/
  | notANumber (text : Text)
  /-- The number encodes no state. -/
  | badState (fault : StateFault)
  deriving DecidableEq, Repr

/-- What a fault says to a reader. -/
def OptionFault.message : OptionFault → Text
  | unknown flag => "unknown option '".toList ++ flag ++ ['\'']
  | notANumber text => "invalid state number '".toList ++ text ++ ['\'']
  | badState fault => fault.message

/-- The flag that gives the start state, without its number. -/
def stateFlag : Text := "--state=".toList

/-- The start state that the number in a flag gives. -/
def readState (text : Text) : Except OptionFault ResumeState :=
  match readWord? text with
  | none => .error (.notANumber text)
  | some raw =>
    match ResumeState.decode raw with
    | .error fault => .error (.badState fault)
    | .ok state => .ok state

/-- The options after one more flag. -/
def DumpOptions.apply (options : DumpOptions) (flag : Text) : Except OptionFault DumpOptions :=
  if flag = "--no-links".toList then .ok { options with scope := .off }
  else if flag = "--links=strings".toList then .ok { options with scope := .commentsAndStrings }
  else if flag = "--links=comments".toList then .ok { options with scope := .comments }
  else if stateFlag.isPrefixOf flag then
    match readState (flag.drop stateFlag.length) with
    | .ok state => .ok { options with start := state }
    | .error fault => .error fault
  else .error (.unknown flag)

/-- The options after all flags; later flags override earlier ones, and the first fault counts. -/
def DumpOptions.applyAll (options : DumpOptions) : List Text → Except OptionFault DumpOptions
  | [] => .ok options
  | flag :: flags =>
    match options.apply flag with
    | .ok options => options.applyAll flags
    | .error fault => .error fault

/-- The options that flags give. -/
def DumpOptions.ofFlags (flags : List Text) : Except OptionFault DumpOptions :=
  standard.applyAll flags

/-! ## Rows -/

/-- The row of a token. -/
def tokenRow (line : Nat) (token : Token) : Text :=
  decimalText line ++ ':' :: (token.describe ++ ['\n'])

/-- The row of the state at the end of a line. -/
def stateRow (line : Nat) (state : ResumeState) : Text :=
  decimalText line ++ ": end ".toList ++ wordText state.encode ++ ' ' :: (state.describe ++ ['\n'])

/-- The dump of the lines that follow, given the number and offset of the next one and the state it
starts in. -/
def dumpLines (scope : LinkScope) (number offset : Nat) (state : ResumeState) : List Text → Text
  | [] => []
  | line :: lines =>
    let lexed := tokenize scope (trimTerminators line) offset state
    -- The offset counts the terminators, which the tokens do not hold.
    lexed.tokens.flatMap (tokenRow number) ++ stateRow number lexed.finish
      ++ dumpLines scope (number + 1) (offset + byteLength line) lexed.finish lines

/-- The dump of a document. -/
def dump (options : DumpOptions) (document : Text) : Text :=
  dumpLines options.scope 1 0 options.start (terminatedLines document)

/-! ## Words of states -/

/-- What is said about the state of a word: the word, the language and the state. -/
def describeWord (raw : UInt32) : Except StateFault Text :=
  (ResumeState.decode raw).map fun state =>
    wordText raw ++ ' ' :: (state.language.name.toList ++ ' ' :: state.describe)

end LineLexer
