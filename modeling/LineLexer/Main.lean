import LineLexer.Command

/-!
# The program

Reads the file that the command line asks for and writes the outcome.
-/

open LineLexer

/-- The bytes of a file, or why there are none. -/
def readBytes (path : String) : IO (Except FileFault ByteArray) := do
  try
    return .ok (← IO.FS.readBinFile path)
  catch
    | .noFileOrDirectory .. => return .error .missing
    | .permissionDenied .. => return .error .forbidden
    | fault => return .error (.failed (toString fault).toList)

/-- Runs the program on its arguments. -/
def main (arguments : List String) : IO UInt32 := do
  let contents ← match arguments with
    | "lex" :: path :: _ => readBytes path
    | _ => pure (.error .missing)
  let outcome := Command.run (fun _ => contents) (arguments.map String.toList)
  (← IO.getStdout).putStr (String.ofList outcome.output)
  (← IO.getStderr).putStr (String.ofList outcome.errors)
  return outcome.code
