import LineLexer.Grammar.Script
import LineLexer.Proofs.Bytewise.Script.Literal
import LineLexer.Proofs.Bytewise.Script.Number

/-!
# Reading scripts

The reader of scripts, state by state, and that at every place it gives the reader after the move of
the grammar (`Place.script_reader`). Literals, templates and regular expressions are read by their
loops, and numbers part by part. A word is the one thing that a single byte is stepped over for
without being known: a byte that starts a word and is not ASCII has the others of its character in
the word too.
-/

namespace LineLexer

namespace Reader

/-- Takes a comment to the end of the line, or up to a closing tag on it. -/
def lineComment (reader : Reader) (start : Nat) : Option Reader := do
  let rest ← reader.cursor.rest?
  match closingTagIndex? scriptTag rest with
  | some index => (reader.seek (reader.cursor.moveBy index)).emit .commentEol start .empty
  | none => (reader.seek reader.cursor.advanceToEnd).emit .commentEol start .empty

/-- Takes the body of a comment in a script. -/
def scriptComment (reader : Reader) (start : Nat) : Option Reader :=
  reader.comment scriptTag (.script .code) (.script .comment) start

/-- Takes an operator, as long as possible. -/
def operator (reader : Reader) : Option Reader := do
  let rest ← reader.cursor.rest?
  reader.fixed .operator (operatorWidth rest)

/-- Takes what a slash starts. -/
def slash (reader : Reader) (start : Nat) : Option Reader :=
  if reader.cursor.lookAt 1 = '/' then reader.lineComment start
  else if reader.cursor.lookAt 1 = '*' then
    (reader.seek (reader.cursor.moveBy 2)).scriptComment start
  else if Script.regexMayFollow reader.script then do
    match ← (reader.cursor.moveBy 1).pattern with
    | some cursor => (reader.seek cursor).emit .regex start .empty
    | none => reader.operator
  else reader.operator

/-- Takes a number; word characters glued to it make the whole an error. -/
def scriptNumber (reader : Reader) (start : Nat) : Option Reader :=
  let (kind, cursor) := reader.cursor.numeral
  if Script.isWordChar cursor.look then
    (reader.seek cursor).takeWhile .errorNumber start Script.isWordChar
  else (reader.seek cursor).emit kind start .empty

/-- Takes a word. -/
def word (reader : Reader) (start : Nat) : Option Reader := do
  let reader := reader.seek ((reader.cursor.moveBy 1).eat Script.isWordChar)
  let text ← slice? reader.cursor.line start reader.cursor.pos
  reader.emit (Kind.ofWord text) start .empty

/-! ## Literals and templates -/

/-- Takes the body of a quoted literal, valid so far. -/
def scriptLiteral (reader : Reader) (quote : Quote) (valid : Bool) (start : Nat) :
    Option Reader := do
  let (cursor, valid, ending) ← reader.cursor.literal quote valid
  let passes := valid && ending != .unterminated
  let next : ScriptState := if ending = .continued then .literal quote valid else .code
  ((reader.seek cursor).goto (.script next)).emit
    (if passes then Script.literalKind quote else Script.literalErrorKind quote) start .empty

/-- Takes an interpolation with a number of open braces. -/
def interpolation (reader : Reader) (depth : Depth) (start : Nat) : Option Reader := do
  let (cursor, openBraces) ← reader.cursor.interpolation depth
  let reader ← (reader.seek cursor).emit .variableName start .empty
  some (reader.goto (.script (Script.afterInterpolation openBraces)))

/-- Takes the text of a template, valid so far, and the interpolation that ends it, if one does. -/
def template (reader : Reader) (valid : Bool) (start : Nat) : Option Reader := do
  let (cursor, valid, ending) ← reader.cursor.template valid
  let reader := reader.seek cursor
  let kind := Script.templateKind valid
  match ending with
  | .closed => (reader.goto (.script .code)).emit kind start .empty
  | .unclosed => (reader.goto (.script (.template valid))).emit kind start .empty
  | .interpolated =>
    let reader ← reader.emit kind start .empty
    (reader.seek (reader.cursor.moveBy 2)).interpolation .one reader.cursor.pos

/-! ## Code -/

/-- Takes the next piece of code at a character that starts no blank, comment, literal or closing
tag. -/
def plainCode (reader : Reader) (start : Nat) : Option Reader :=
  let c := reader.cursor.look
  if c.isDigit || (c = '.' && (reader.cursor.lookAt 1).isDigit) then reader.scriptNumber start
  else if c = '(' || c = ')' || c = '[' || c = ']' || c = '{' || c = '}' then
    reader.fixed .separator 1
  else if c = ';' || c = ',' || c = '.' then reader.fixed .identifier 1
  else if Script.isWordStart c then reader.word start
  else if Script.isOperatorChar c then reader.operator
  else reader.single .identifier

/-- Takes the next piece of code. -/
def scriptCode (reader : Reader) : Option Reader :=
  let start := reader.cursor.pos
  let c := reader.cursor.look
  if isBlank c then reader.blanks
  else do
    if ← reader.atTag scriptTag then reader.closeEmbedded scriptTag
    else if c = '/' then reader.slash start
    else if c = '`' then (reader.seek (reader.cursor.moveBy 1)).template true start
    else
      match Quote.ofChar? c with
      | some quote => (reader.seek (reader.cursor.moveBy 1)).scriptLiteral quote true start
      | none => reader.plainCode start

/-- Takes the next piece in a state of a script. -/
def readScript (reader : Reader) (state : ScriptState) : Option Reader :=
  let start := reader.cursor.pos
  match state with
  | .code => reader.scriptCode
  | .comment => reader.scriptComment start
  | .literal quote valid => reader.scriptLiteral quote valid start
  | .template valid => reader.template valid start
  | .interpolation depth => reader.interpolation depth start

end Reader

namespace Place

open Reader

/-! ## Comments and operators -/

/-- A comment to the end of the line. -/
theorem lineComment_reader (place : Place) :
    (place.reader (.script .code) 0).lineComment place.pos =
      some (place.answer (Script.lineComment place.rest)) := by
  rw [lineComment, cursor_reader, Cursor.rest?_stand, List.drop_zero]
  simp only [Option.bind_eq_bind, Option.bind_some, Script.lineComment,
    closingTagIndex?_bytewise (by decide : AllAscii scriptTag)]
  cases closingTagIndex? scriptTag place.rest with
  | some index =>
    have hmove := Cursor.moveBy_stand_bytes place.head place.rest 0 index
    rw [List.drop_zero, Nat.zero_add] at hmove
    simp only [Option.map_some, hmove, seek_reader, emit_reader]
    rfl
  | none =>
    simp only [Option.map_none, Cursor.advanceToEnd_stand, seek_reader, emit_reader]
    rfl

/-- The body of a comment, after its opening. -/
theorem scriptComment_reader (place : Place) (state : ResumeState) {lead : Nat}
    (hlead : lead ≤ place.rest.length) :
    (place.reader state lead).scriptComment place.pos =
      some (place.answer (Script.comment lead (place.rest.drop lead))) := by
  rw [scriptComment, comment_reader place state hlead (by decide), Script.comment]
  cases commentWidth? scriptTag (place.rest.drop lead) <;> rfl

section

variable {place : Place} {c : Char} {rest : Text} (h : place.rest = c :: rest)

include h

/-- An operator. -/
theorem operator_reader (hc : isNonAscii c = false) :
    (place.reader (.script .code) 0).operator =
      some (place.answer (Script.operator (c :: rest))) := by
  have hascii : AllAscii (place.rest.take (operatorWidth (c :: rest))) := by
    rw [h]
    exact allAscii_operatorWidth hc rest
  rw [operator, cursor_reader, Cursor.rest?_stand, List.drop_zero, h]
  simp only [Option.bind_eq_bind, Option.bind_some, operatorWidth_bytewise]
  exact fixed_reader place _ _ hascii

/-- A number. -/
theorem scriptNumber_reader :
    (place.reader (.script .code) 0).scriptNumber place.pos =
      some (place.answer (Script.number c rest)) := by
  have hnumeral := Cursor.numeral_stand place.head c rest
  rw [← h] at hnumeral
  have hglued : Script.isWordChar
      (Cursor.stand place.head place.rest (Script.numeral c rest).2).look =
        (place.rest.drop (Script.numeral c rest).2).head?.any Script.isWordChar :=
    Cursor.test_look_stand uniform_isWordChar (by decide) ..
  simp only [scriptNumber, cursor_reader, hnumeral, hglued, seek_reader, Script.number, ← h,
    takeWhile_reader place _ _ _ uniform_isWordChar, emit_reader]
  -- Word characters are glued to the number exactly if one stands right behind it.
  cases hany : (place.rest.drop (Script.numeral c rest).2).head?.any Script.isWordChar with
  | true =>
    have hne : runLength Script.isWordChar (place.rest.drop (Script.numeral c rest).2) ≠ 0 := by
      rw [Ne, runLength_eq_zero, hany]
      decide
    simp only [if_true, if_neg hne]
    rfl
  | false =>
    have hzero := runLength_eq_zero.2 hany
    simp only [Bool.false_eq_true, if_false, hzero, if_true, Nat.add_zero]
    rfl

/-- A word of a script. -/
theorem scriptWord_reader :
    (place.reader (.script .code) 0).word place.pos =
      some (place.answer (Script.one (Kind.ofWord (c :: rest.takeWhile Script.isWordChar))
        (c :: rest.takeWhile Script.isWordChar).length .code)) := by
  -- A word may start with a character that it does not go on with, but only with an ASCII one.
  have hstart : isNonAscii c = false ∨ Script.isWordChar c = true := by
    cases hna : isNonAscii c with
    | false => exact .inl rfl
    | true => exact .inr (by simp [Script.isWordChar, hna])
  have hcursor := Cursor.eat_moveBy_one_stand uniform_isWordChar place.head hstart rest
  rw [← h] at hcursor
  have htext := Cursor.slice?_stand place.head place.rest 0 (1 + runLength Script.isWordChar rest)
  have htake : (place.rest.drop 0).take (1 + runLength Script.isWordChar rest) =
      c :: rest.takeWhile Script.isWordChar := by
    rw [h, List.drop_zero, Nat.add_comm, List.take_succ_cons, take_runLength]
  rw [Nat.zero_add, htake] at htext
  have hpos : (Cursor.stand place.head place.rest 0).pos = place.pos := by simp [pos]
  rw [hpos] at htext
  simp only [word, cursor_reader, hcursor, seek_reader, Cursor.line_stand, htext,
    Option.bind_eq_bind, Option.bind_some, emit_reader]
  rw [Nat.add_comm]
  rfl

end

/-! ## Literals and templates -/

/-- The body of a quoted literal, after its opening. -/
theorem scriptLiteral_reader (place : Place) (state : ResumeState) (lead : Nat) (quote : Quote)
    (valid : Bool) :
    (place.reader state lead).scriptLiteral quote valid place.pos =
      some (place.answer (Script.literal quote valid lead (place.rest.drop lead))) := by
  rw [scriptLiteral, cursor_reader, Cursor.literal_stand]
  simp only [Option.bind_eq_bind, Option.bind_some, seek_reader, goto_reader, emit_reader]
  rfl

/-- An interpolation, after its opening. -/
theorem interpolation_reader (place : Place) (state : ScriptState) (lead : Nat) (depth : Depth) :
    (place.reader (.script state) lead).interpolation depth place.pos =
      some (place.answer (Script.one .variableName
        (lead + (Script.interpolationBody depth (place.rest.drop lead)).width)
        (Script.afterInterpolation
          (Script.interpolationBody depth (place.rest.drop lead)).openBraces))) := by
  rw [Reader.interpolation, cursor_reader, Cursor.interpolation_stand]
  simp only [Option.bind_eq_bind, Option.bind_some, seek_reader, goto_reader, emit_reader]
  rfl

end Place

/-- Where the text of a template ends before an interpolation stand the two characters that open
it. -/
theorem Script.prefix_drop_of_interpolated {valid : Bool} {text : Text}
    (h : (Script.templateBody valid text).ending = .interpolated) :
    ['$', '{'] <+: text.drop (Script.templateBody valid text).width := by
  fun_induction Script.templateBody valid text with
  | case1 => cases h
  | case2 => cases h
  | case3 valid rest hclose ih =>
    have hdrop := ih h
    rw [List.drop_drop] at hdrop
    rw [TemplateBody.after, Nat.add_assoc, Nat.add_comm 1]
    exact hdrop
  | case4 valid c rest hclose hescape hopen =>
    simp only [Bool.and_eq_true, decide_eq_true_eq] at hopen
    obtain ⟨rfl, hbrace⟩ := hopen
    obtain ⟨tail, rfl⟩ := List.head?_eq_some_iff.1 hbrace
    exact ⟨tail, rfl⟩
  | case5 valid c rest hclose hescape hopen ih =>
    rw [TemplateBody.after, Nat.add_comm 1]
    exact ih h

namespace Place

open Reader

/-- The text of a template, after its opening, and the interpolation that ends it, if one does. -/
theorem template_reader (place : Place) (state : ScriptState) (lead : Nat) (valid : Bool) :
    (place.reader (.script state) lead).template valid place.pos =
      some (place.answer (Script.template valid lead (place.rest.drop lead))) := by
  rw [Reader.template, cursor_reader, Cursor.template_stand, Script.template]
  simp only [Option.bind_eq_bind, Option.bind_some, seek_reader, goto_reader]
  cases hending : (Script.templateBody valid (place.rest.drop lead)).ending with
  | closed => exact emit_reader ..
  | unclosed => exact emit_reader ..
  | interpolated =>
    -- The text is cut off first, and the interpolation starts at the place after it.
    let body := Script.templateBody valid (place.rest.drop lead)
    let after := place.cut [⟨Script.templateKind body.valid, lead + body.width, .script, .empty⟩]
    have hafter : after.rest = (place.rest.drop lead).drop body.width := by
      rw [List.drop_drop]
      rfl
    have hmark : after.HasMark 2 := by
      obtain ⟨tail, htail⟩ := Script.prefix_drop_of_interpolated hending
      exact .of_append ['$', '{'] (hafter.trans htail.symm) (by decide)
    have hinner : after.rest.drop 2 = (place.rest.drop lead).drop (body.width + 2) := by
      rw [hafter, List.drop_drop]
    simp only [emit_reader, Option.bind_some]
    refine (congrArg₂ (fun reader start => reader.interpolation .one start) (hmark.seek _)
      (pos_reader after _)).trans ?_
    rw [interpolation_reader, hinner, answer, cut_cut]
    rfl

section

variable {place : Place} {c : Char} {rest : Text} (h : place.rest = c :: rest)

include h

/-! ## Slashes -/

/-- What a slash starts. -/
theorem slash_reader (hc : c = '/') :
    (place.reader (.script .code) 0).slash place.pos =
      some (place.answer (Script.slash (Script.regexMayFollow place.past.script) rest)) := by
  subst hc
  have hone : isNonAscii '/' = false := rfl
  have hslash : (place.reader (.script .code) 0).cursor.lookAt 1 = '/' ↔ rest.head? = some '/' := by
    rw [lookAt_one_eq h _ hone (by decide) (by decide)]
  have hstar : (place.reader (.script .code) 0).cursor.lookAt 1 = '*' ↔ rest.head? = some '*' := by
    rw [lookAt_one_eq h _ hone (by decide) (by decide)]
  have hpattern : ((place.reader (.script .code) 0).cursor.moveBy 1).pattern =
      some ((Script.regexWidth? rest).map (Cursor.stand place.head place.rest)) := by
    rw [cursor_reader, h, Cursor.moveBy_one_stand place.head hone, Cursor.pattern_stand,
      Script.regexWidth?, Option.map_map]
    refine congrArg some (Option.map_congr fun width _ => ?_)
    rw [Function.comp, Nat.add_assoc]
    rfl
  simp only [slash, hslash, hstar]
  rw [Script.slash]
  split
  next =>
    rw [lineComment_reader, h]
  split
  next hc =>
    obtain ⟨tail, rfl⟩ := List.head?_eq_some_iff.1 hc
    have hmark : place.HasMark 2 := .of_append "/*".toList h (by decide)
    rw [hmark.seek, scriptComment_reader place _ hmark.le, h]
    rfl
  have hallowed : (place.reader (.script .code) 0).script = place.past.script := rfl
  rw [hallowed]
  split
  next =>
    -- The probe either ends behind the flags or is dropped, and the slash is an operator.
    simp only [hpattern, Option.bind_eq_bind, Option.bind_some]
    cases Script.regexWidth? rest with
    | some width =>
      simp only [Option.map_some, seek_reader, emit_reader]
      rfl
    | none => exact operator_reader h hone
  next => exact operator_reader h hone

/-! ## Code -/

/-- The next piece of code at a character that starts no blank, comment, literal or closing tag. -/
theorem plainCode_reader :
    (place.reader (.script .code) 0).plainCode place.pos =
      some (place.answer (Script.plainCode c rest)) := by
  have hnumber : (c.isDigit || (c = '.' &&
      ((place.reader (.script .code) 0).cursor.lookAt 1).isDigit)) =
        (c.isDigit || (c == '.' && rest.head?.any Char.isDigit)) := by
    by_cases hc : c = '.'
    · subst hc
      rw [test_lookAt_one h _ (by decide) asciiOnly_isDigit.uniform (by decide)]
      simp
    · simp [hc]
  simp (disch := decide) only [plainCode, look_eq h, test_look h _ asciiOnly_isDigit.uniform,
    test_look h _ uniform_isWordStart, test_look h _ asciiOnly_script_isOperatorChar.uniform,
    hnumber]
  rw [Script.plainCode]
  split
  next => exact scriptNumber_reader h
  split
  next hc =>
    refine fixed_one_reader h _ _ ?_
    simp only [Bool.or_eq_true, decide_eq_true_eq] at hc
    rcases hc with ((((rfl | rfl) | rfl) | rfl) | rfl) | rfl <;> rfl
  split
  next hc =>
    refine fixed_one_reader h _ _ ?_
    simp only [Bool.or_eq_true, decide_eq_true_eq] at hc
    rcases hc with (rfl | rfl) | rfl <;> rfl
  split
  next => exact scriptWord_reader h
  split
  next hc => exact operator_reader h (asciiOnly_script_isOperatorChar.isNonAscii_eq_false hc)
  next => exact single_reader place _ _

/-- The next piece of code. -/
theorem scriptCode_reader :
    (place.reader (.script .code) 0).scriptCode =
      some (place.answer (Script.code (Script.regexMayFollow place.past.script) c rest)) := by
  simp (disch := decide) only [scriptCode, pos_reader, test_look h _ asciiOnly_isBlank.uniform,
    look_eq h, atTag_reader h, ofChar?_look h]
  unfold Script.code
  split
  next hblank => exact blanks_reader h _ hblank
  simp only [Option.bind_eq_bind, Option.bind_some]
  split
  next hc =>
    simp only [Bool.and_eq_true, decide_eq_true_eq] at hc
    exact closeEmbedded_reader place _ (by decide) (by decide) (by rw [h]; exact hc.2)
  split
  next hc => exact slash_reader h hc
  split
  next hc =>
    have hmark : place.HasMark 1 := .one h (by rw [hc]; rfl)
    rw [hmark.seek, template_reader, h]
    rfl
  cases hq : Quote.ofChar? c with
  | some quote =>
    have hmark : place.HasMark 1 := .quote h hq
    simp only [hmark.seek, scriptLiteral_reader, h]
    rfl
  | none => exact plainCode_reader h

/-- The reader of scripts takes the move of a script at every place. -/
theorem script_reader (state : ScriptState) :
    (place.reader (.script state) 0).readScript state =
      some (place.answer (Script.move (Script.regexMayFollow place.past.script) state c rest)) := by
  have hrest : place.rest.drop 0 = c :: rest := h
  cases state with
  | code => exact scriptCode_reader h
  | comment =>
    simp only [readScript, pos_reader]
    rw [scriptComment_reader place _ (Nat.zero_le _), hrest]
    rfl
  | literal quote valid =>
    simp only [readScript, pos_reader]
    rw [scriptLiteral_reader, hrest]
    rfl
  | template valid =>
    simp only [readScript, pos_reader]
    rw [template_reader, hrest]
    rfl
  | interpolation depth =>
    simp only [readScript, pos_reader]
    rw [interpolation_reader, hrest, Nat.zero_add]
    rfl

end

end Place

end LineLexer
