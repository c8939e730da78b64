import LineLexer.Dump

/-!
# The command line

What the program does with its arguments, as a function of the arguments and of the files that it
may read. The outcome is an exit code and what is written to the two output streams.
-/

namespace LineLexer

/-- Why a file could not be read. -/
inductive FileFault where
  | missing
  | forbidden
  | failed (reason : Text)
  deriving DecidableEq, Repr

/-- What a run of the program leaves behind. -/
structure Outcome where
  code : UInt32
  output : Text
  errors : Text
  deriving DecidableEq, Repr

namespace Command

/-- Lines of a text, each with its terminator. -/
def lines (rows : List String) : Text :=
  rows.flatMap fun row => row.toList ++ ['\n']

/-- What the flags of a dump do. -/
def flagRows : List String :=
  ["  --no-links          Do not split URLs out of comments",
    "  --links=comments    Split URLs out of comments (default)",
    "  --links=strings     Split URLs out of comments and strings",
    "  --state=<n>         Resume state of the first line (default: 0)"]

/-- How the program is used. -/
def usage : Text :=
  lines (["weft - line-resumable markup tokenizer", "", "Usage: weft <command> [options]", "",
    "Commands:", "  lex <file>     Tokenize a file line by line and print every token",
    "  state <n>      Decode a resume-state integer (decimal or 0x hex)",
    "  help           Show this help message", "  version        Show version information", "",
    "Lex options:"] ++ flagRows
    ++ ["", "Set RUST_LOG=weft_lexer=trace to log grammar hand-offs."])

/-- How the command that dumps a file is used. -/
def lexUsage : Text :=
  lines (["Usage: weft lex <file> [options]", "", "Options:"] ++ flagRows)

/-- How the command that describes a state is used. -/
def stateUsage : Text :=
  lines ["Usage: weft state <n>", "Example: weft state 0x0288"]

/-- The outcome of a run that writes a text. -/
def succeed (output : Text) : Outcome := ⟨0, output, []⟩

/-- The outcome of a run that reports an error. -/
def fail (errors : Text) : Outcome := ⟨1, [], errors⟩

/-- An error message on a line of its own. -/
def errorLine (message : Text) : Text :=
  "error: ".toList ++ message ++ ['\n']

/-- The contents of a file as a text, or what is said when there is none. -/
def readText (path : Text) : Except FileFault ByteArray → Except Text Text
  | .error .missing => .error ("cannot find file '".toList ++ path ++ ['\''])
  | .error .forbidden => .error ("permission denied reading '".toList ++ path ++ ['\''])
  | .error (.failed reason) =>
    .error ("error reading '".toList ++ path ++ "': ".toList ++ reason)
  | .ok bytes =>
    match String.fromUTF8? bytes with
    | some text => .ok text.toList
    | none => .error ('\'' :: (path ++ "' contains invalid UTF-8 data".toList))

/-- Dumps a file; the flags are read before the file is. -/
def lex (files : Text → Except FileFault ByteArray) (path : Text) (flags : List Text) : Outcome :=
  match DumpOptions.ofFlags flags with
  | .error fault => fail (errorLine fault.message)
  | .ok options =>
    match readText path (files path) with
    | .error message => fail (message ++ ['\n'])
    | .ok document => succeed (dump options document)

/-- Describes the state of a word. -/
def state (argument : Text) : Outcome :=
  match readWord? argument with
  | none =>
    fail (errorLine ('\'' :: (argument ++ "' is not a decimal or 0x-prefixed hex number".toList)))
  | some raw =>
    match describeWord raw with
    | .error fault => fail (errorLine fault.message)
    | .ok description => succeed (description ++ ['\n'])

/-- The outcome of the program on its arguments, given what reading a file gives. -/
def run (files : Text → Except FileFault ByteArray) : List Text → Outcome
  | [] => succeed usage
  | command :: arguments =>
    if command = "lex".toList then
      match arguments with
      | [] => fail lexUsage
      | path :: flags => lex files path flags
    else if command = "state".toList then
      match arguments with
      | [] => fail stateUsage
      | argument :: _ => state argument
    else if command = "help".toList ∨ command = "--help".toList ∨ command = "-h".toList then
      succeed usage
    else if command = "version".toList ∨ command = "--version".toList ∨ command = "-V".toList then
      succeed "weft 0.1.0-alpha.1\n".toList
    else ⟨1, usage, "Unknown command: ".toList ++ command ++ "\n\n".toList⟩

end Command

end LineLexer
