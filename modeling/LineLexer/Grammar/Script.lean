import LineLexer.Grammar.Script.Number
import LineLexer.Grammar.Script.Regex
import LineLexer.Grammar.Script.Template
import LineLexer.Vocabulary.Keywords
import LineLexer.Vocabulary.Operators

/-!
# The grammar of scripts

The move of a script in each of its states. At a slash one thing is asked of the line before:
whether a regular expression may follow.
-/

namespace LineLexer.Script

/-- The first characters of words. -/
def isWordStart (c : Char) : Bool :=
  c.isAlpha || c == '_' || c == '$' || c == '#' || isNonAscii c

/-- Characters that start an operator. -/
def isOperatorChar (c : Char) : Bool :=
  c == '+' || c == '-' || c == '*' || c == '/' || c == '%' || c == '=' || c == '<' || c == '>'
    || c == '!' || c == '~' || c == '?' || c == ':' || c == '&' || c == '|' || c == '^'

/-- Takes an operator, as long as possible. -/
def operator (text : Text) : Move :=
  one .operator (operatorWidth text) .code

/-- The move at a slash. -/
def slash (regexAllowed : Bool) (rest : Text) : Move :=
  if rest.head? = some '/' then lineComment ('/' :: rest)
  else if rest.head? = some '*' then comment 2 (rest.drop 1)
  else if regexAllowed then
    match regexWidth? rest with
    | some width => one .regex width .code
    | none => operator ('/' :: rest)
  else operator ('/' :: rest)

/-- The move in code at a character that starts no blank, comment, literal or closing tag. -/
def plainCode (c : Char) (rest : Text) : Move :=
  if c.isDigit || (c == '.' && rest.head?.any Char.isDigit) then number c rest
  else if c = '(' || c = ')' || c = '[' || c = ']' || c = '{' || c = '}' then one .separator 1 .code
  else if c = ';' || c = ',' || c = '.' then one .identifier 1 .code
  -- A number sign starts a word but does not go on with one.
  else if isWordStart c then
    let word := c :: rest.takeWhile isWordChar
    one (Kind.ofWord word) word.length .code
  else if isOperatorChar c then operator (c :: rest)
  else one .identifier 1 .code

/-- The move in code. -/
def code (regexAllowed : Bool) (c : Char) (rest : Text) : Move :=
  if isBlank c then one .whitespace (runLength isBlank rest + 1) .code
  else if c = '<' && atClosingTag scriptTag (c :: rest) then closeElement scriptTag
  -- A slash may start a comment or a regular expression, so it comes before the operators.
  else if c = '/' then slash regexAllowed rest
  else if c = '`' then template true 1 rest
  else
    match Quote.ofChar? c with
    | some quote => literal quote true 1 rest
    | none => plainCode c rest

/-- The move of a script at a text that is not empty. -/
def move (regexAllowed : Bool) (state : ScriptState) (c : Char) (rest : Text) : Move :=
  match state with
  | .code => code regexAllowed c rest
  | .comment => comment 0 (c :: rest)
  | .literal quote valid => literal quote valid 0 (c :: rest)
  | .template valid => template valid 0 (c :: rest)
  | .interpolation depth => interpolation depth (c :: rest)

/-! ## Every move goes forward -/

/-- A slash is taken. -/
theorem slash_width_pos (regexAllowed : Bool) (rest : Text) :
    0 < (slash regexAllowed rest).width := by
  unfold slash
  split
  · exact lineComment_width_pos _ _ (by decide)
  split
  · exact Nat.lt_of_lt_of_le (by decide) (comment_width_ge 2 _)
  split
  · split
    next h =>
      simp only [width_one]
      exact regexWidth?_pos h
    next =>
      simp only [operator, width_one]
      exact operatorWidth_pos _
  · simp only [operator, width_one]
    exact operatorWidth_pos _

/-- A move at any other character takes something. -/
theorem plainCode_width_pos (c : Char) (rest : Text) : 0 < (plainCode c rest).width := by
  unfold plainCode
  split
  next h => exact number_width_pos h
  repeat' split
  all_goals simp [operator, operatorWidth_pos]

/-- A move in code takes something. -/
theorem code_width_pos (regexAllowed : Bool) (c : Char) (rest : Text) :
    0 < (code regexAllowed c rest).width := by
  unfold code
  split
  · simp
  split
  · exact closeElement_width_pos _
  split
  · exact slash_width_pos _ _
  split
  · exact template_width_pos _ _ (by simp)
  split
  · exact literal_width_pos _ _ _ (by simp)
  · exact plainCode_width_pos c rest

/-- Every move of a script goes forward. -/
theorem move_progresses (regexAllowed : Bool) (state : ScriptState) (c : Char) (rest : Text) :
    (move regexAllowed state c rest).Progresses (.script state) := by
  cases state with
  | code => exact .inl (code_width_pos regexAllowed c rest)
  | comment => exact comment_progresses c rest
  | literal quote valid => exact .inl (literal_width_pos _ _ _ (by simp))
  | template valid => exact .inl (template_width_pos _ _ (by simp))
  | interpolation depth =>
    refine .inl ?_
    simp only [move, interpolation, width_one]
    exact interpolationBody_width_pos depth c rest

end LineLexer.Script
