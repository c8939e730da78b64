import LineLexer.Grammar.Script.Basic

/-!
# Quoted literals of scripts

A literal runs to its closing quote, over escapes that are checked on the way. A backslash at the
end of the line continues it on the next line; any other literal that reaches the end is an
error.
-/

namespace LineLexer.Script

/-- The width of up to `count` hexadecimal digits at the head of a text. -/
def hexWidth (count : Nat) (text : Text) : Nat :=
  runLength isHexDigit (text.take count)

/-- The width of an escape in braces after its opening brace, and whether it is well formed. A
closing brace that follows no digit is left to the text. -/
def bracedEscape (text : Text) : Nat × Bool :=
  let digits := runLength isHexDigit text
  if 0 < digits ∧ (text.drop digits).head? = some '}' then (digits + 1, true) else (digits, false)

/-- The width of an escape after its backslash, and whether it is well formed. -/
def escape : Text → Nat × Bool
  | [] => (0, true)
  | c :: rest =>
    if c = 'x' then (1 + hexWidth 2 rest, hexWidth 2 rest == 2)
    else if c = 'u' then
      if rest.head? = some '{' then
        (2 + (bracedEscape (rest.drop 1)).1, (bracedEscape (rest.drop 1)).2)
      else (1 + hexWidth 4 rest, hexWidth 4 rest == 4)
    else if isOctalDigit c then (runLength isOctalDigit ((c :: rest).take 3), true)
    else (1, true)

/-! ## Bodies -/

/-- How the body of a literal ends on a line. -/
inductive LiteralEnd where
  /-- At its closing quote. -/
  | closed
  /-- At a backslash that ends the line. -/
  | continued
  /-- At the end of the line, in error. -/
  | unterminated
  deriving DecidableEq, Repr

/-- The body of a literal on a line. -/
structure LiteralBody where
  width : Nat
  valid : Bool
  ending : LiteralEnd
  deriving DecidableEq, Repr

/-- A body with more characters before it. -/
def LiteralBody.after (lead : Nat) (body : LiteralBody) : LiteralBody :=
  { body with width := lead + body.width }

/-- The body of a literal at the head of a text, `valid` so far. -/
def literalBody (quote : Quote) (valid : Bool) : Text → LiteralBody
  | [] => ⟨0, valid, .unterminated⟩
  | c :: rest =>
    if c = '\\' then
      -- A backslash at the end of the line escapes the line break, which is not in the text.
      if rest.isEmpty then ⟨1, valid, .continued⟩
      else
        (literalBody quote (valid && (escape rest).2) (rest.drop (escape rest).1)).after
          (1 + (escape rest).1)
    else if c = quote.char then ⟨1, valid, .closed⟩
    else (literalBody quote valid rest).after 1
termination_by text => text.length
decreasing_by
  · simp only [List.length_drop, List.length_cons]
    omega
  · exact Nat.lt_succ_self _

/-- The kind of a literal that passes its checks. -/
def literalKind : Quote → Kind
  | .double => .literalStringDouble
  | .single => .literalChar

/-- The kind of a literal that fails them. -/
def literalErrorKind : Quote → Kind
  | .double => .errorString
  | .single => .errorChar

/-- Takes the body of a literal, after `lead` characters that open it. -/
def literal (quote : Quote) (valid : Bool) (lead : Nat) (text : Text) : Move :=
  let body := literalBody quote valid text
  let passes := body.valid && body.ending != .unterminated
  one (if passes then literalKind quote else literalErrorKind quote) (lead + body.width)
    (if body.ending = .continued then .literal quote body.valid else .code)

/-! ## What is taken is not empty -/

/-- The body of a literal at a text that is not empty has a width. -/
theorem literalBody_width_pos (quote : Quote) (valid : Bool) (c : Char) (rest : Text) :
    0 < (literalBody quote valid (c :: rest)).width := by
  rw [literalBody]
  repeat' split
  all_goals
    simp only [LiteralBody.after]
    omega

/-- A literal is not empty. -/
theorem literal_width_pos (quote : Quote) (valid : Bool) (lead : Nat) {text : Text}
    (h : lead = 0 → text ≠ []) : 0 < (literal quote valid lead text).width := by
  simp only [literal, width_one]
  cases text with
  | nil =>
    have : lead ≠ 0 := fun h0 => h h0 rfl
    omega
  | cons c rest =>
    have := literalBody_width_pos quote valid c rest
    omega

end LineLexer.Script
