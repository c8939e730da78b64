import LineLexer.Proofs.Bytewise.Reader

/-!
# Reading style sheets

The reader of style sheets, context by context, and that at every place it gives the reader after
the move of the grammar (`Place.style_reader`). The body of a literal is a loop that steps over
whole characters (`Cursor.styleLiteral_stand`). The names of properties are the one thing that a
single byte is stepped over for without being known: the byte starts a name, so the others of its
character go on with it (`Place.sigil_reader`).
-/

namespace LineLexer

/-! ## Literals -/

namespace Cursor

/-- A turn of the loop over the body of a literal, which ends in whether its quote closes it. -/
def styleLiteralTurn (quote : Quote) (cursor : Cursor) : Turn Cursor (Bool × Cursor) :=
  if cursor.atEnd then .done (false, cursor)
  else if cursor.look = '\\' then .again (cursor.moveBy 1).moveChar
  else if cursor.look = quote.char then .done (true, cursor.moveBy 1)
  else .again cursor.moveChar

/-- Moves over the body of a literal. -/
def styleLiteral (quote : Quote) (cursor : Cursor) : Option (Bool × Cursor) :=
  loop (styleLiteralTurn quote) (cursor.length + 1) cursor

/-- A turn over the body of a literal moves past one character, or past a backslash and the
character after it. -/
theorem styleLiteralTurn_cons (quote : Quote) (head : Text) (c : Char) (rest : Text) :
    styleLiteralTurn quote (stand head (c :: rest) 0) =
      if c = '\\' then .again (stand head (c :: rest) 2)
      else if c = quote.char then .done (true, stand head (c :: rest) 1)
      else .again (stand head (c :: rest) 1) := by
  simp (disch := decide) only [styleLiteralTurn, atEnd_stand_cons, Bool.false_eq_true, if_false,
    look_stand_cons head, look_stand_cons head quote.isNonAscii_char, moveChar_stand]
  split
  next hc => rw [moveBy_one_stand head (by rw [hc]; rfl), moveChar_stand]
  split
  next hc => rw [moveBy_one_stand head (by rw [hc]; exact quote.isNonAscii_char)]
  next => rfl

/-- Where the loop over the body of a literal ends. -/
def styleLiteralEnd (quote : Quote) (head text : Text) : Bool × Cursor :=
  match Style.closingQuoteWidth? quote text with
  | some width => (true, stand head text width)
  | none => (false, stand head text text.length)

/-- A quote that closes the rest after some characters closes the text so many characters later. -/
theorem styleLiteralEnd_drop (quote : Quote) (head text : Text) (n : Nat) :
    styleLiteralEnd quote (head ++ text.take n) (text.drop n) =
      match (Style.closingQuoteWidth? quote (text.drop n)).map (· + n) with
      | some width => (true, stand head text width)
      | none => (false, stand head text text.length) := by
  rw [styleLiteralEnd]
  cases Style.closingQuoteWidth? quote (text.drop n) with
  | none => exact congrArg (Prod.mk false) (stand_drop_length head text n)
  | some width => simp only [stand_drop, Option.map_some, Nat.add_comm n]

/-- The loop over the body of a literal goes over characters. -/
theorem overCharacters_styleLiteralTurn (quote : Quote) :
    OverCharacters (styleLiteralTurn quote) (fun cursor (_ : Unit) => cursor)
      fun head text _ => styleLiteralEnd quote head text where
  nil head _ := by simp [styleLiteralTurn, styleLiteralEnd, Style.closingQuoteWidth?]
  cons head c rest _ := by
    rw [styleLiteralTurn_cons]
    simp only [styleLiteralEnd, Style.closingQuoteWidth?_cons]
    by_cases hescape : c = '\\'
    · simp only [if_pos hescape]
      exact .inr ⟨1, (), rfl, styleLiteralEnd_drop quote head (c :: rest) 2⟩
    by_cases hquote : c = quote.char
    · exact .inl (by simp only [if_neg hescape, if_pos hquote])
    · simp only [if_neg hescape, if_neg hquote]
      exact .inr ⟨0, (), rfl, styleLiteralEnd_drop quote head (c :: rest) 1⟩

/-- Moving over the body of a literal from a place between characters. -/
theorem styleLiteral_stand (quote : Quote) (head text : Text) (n : Nat) :
    (stand head text n).styleLiteral quote =
      some (styleLiteralEnd quote (head ++ text.take n) (text.drop n)) :=
  (overCharacters_styleLiteralTurn quote).loop_stand head text n ()

end Cursor

/-! ## The reader -/

namespace Reader

/-- Takes a number of bytes and goes on in a context of a style sheet. -/
def fixedIn (reader : Reader) (kind : Kind) (width : Nat) (context : StyleContext) :
    Option Reader :=
  reader.fixedTo kind width (.style (.code context))

/-- Takes the body of a literal. -/
def styleLiteral (reader : Reader) (quote : Quote) (context : StyleContext) (start : Nat) :
    Option Reader := do
  let (closed, cursor) ← reader.cursor.styleLiteral quote
  let next : StyleState := if closed then .code context else .literal quote context
  ((reader.seek cursor).goto (.style next)).emit (Style.literalKind quote) start .empty

/-- Takes the body of a comment in a style sheet. -/
def styleComment (reader : Reader) (context : StyleContext) (start : Nat) : Option Reader :=
  reader.comment styleTag (.style (.code context)) (.style (.comment context)) start

/-! ### Selectors -/

/-- Takes colons and the name after them if that is a known one, else the colons alone. -/
def pseudo (reader : Reader) (start : Nat) : Option Reader := do
  let colons := if reader.cursor.lookAt 1 = ':' then 2 else 1
  let name := reader.cursor.moveBy colons
  let probe := name.eat Style.isNameChar
  let text ← slice? probe.line name.pos probe.pos
  if pseudos.contains text then (reader.seek probe).emit .reservedWord start .empty
  else reader.fixed .operator colons

/-- Takes an at sign and the name after it, and goes on in the prelude of the at-rule. -/
def atKeyword (reader : Reader) (start : Nat) : Option Reader := do
  let name := reader.cursor.moveBy 1
  let reader := reader.seek (name.eat Style.isNameChar)
  let text ← slice? reader.cursor.line name.pos reader.cursor.pos
  let body := atRules.find? text
  let reader ← reader.emit .regex start (.ofKnown body.isSome)
  some (reader.goto (.style (.code (.atRule (body.getD .rules)))))

/-- Takes the next piece of a selector. -/
def selector (reader : Reader) (start : Nat) : Option Reader :=
  let c := reader.cursor.look
  if c = '@' then reader.atKeyword start
  else if c = '{' then reader.fixedIn .separator 1 .propertyKey
  else if c = '}' || c = ';' || c = '(' || c = ')' || c = '[' || c = ']' then
    reader.fixed .separator 1
  else if c = ':' then reader.pseudo start
  else if c = '#' then
    (reader.seek (reader.cursor.moveBy 1)).takeWhile .variableName start Style.isNameChar
  else if c = '*' then reader.fixed .dataType 1
  else if c = '.' then
    (reader.seek (reader.cursor.moveBy 1)).takeWhile .dataType start Style.isNameChar
  else if c = '/' then reader.takeWhile .identifier start (· == '/')
  else if Style.isOperatorChar c then reader.fixed .operator 1
  else if Style.isNameChar c then reader.takeWhile .dataType start Style.isNameChar
  else reader.single .identifier

/-! ### At-rules and declarations -/

/-- The width of the number at the cursor. -/
def styleNumberWidth? (reader : Reader) : Option (Option Nat) := do
  let rest ← reader.cursor.rest?
  some (Style.numberWidth? rest)

/-- Takes a number of a known width, with its unit. -/
def styleNumber (reader : Reader) (width start : Nat) : Option Reader := do
  let cursor := reader.cursor.moveBy width
  if cursor.look = '%' then
    (reader.seek (cursor.moveBy 1)).emit .literalDecimalInt start .empty
  else do
    let probe := cursor.eat Char.isAlpha
    let letters ← slice? probe.line cursor.pos probe.pos
    (reader.seek (if units.contains letters then probe else cursor)).emit .literalDecimalInt start
      .empty

/-- Takes a name, which is a call if a parenthesis follows. -/
def wordOrCall (reader : Reader) (start : Nat) : Option Reader :=
  let cursor := reader.cursor.eat Style.isNameChar
  let kind := if cursor.look = '(' then .functionName else .identifier
  (reader.seek cursor).emit kind start .empty

/-- Takes a number, a name or a single character. -/
def value (reader : Reader) (start : Nat) : Option Reader := do
  match ← reader.styleNumberWidth? with
  | some width => reader.styleNumber width start
  | none =>
    if Style.isNameChar reader.cursor.look then reader.wordOrCall start
    else reader.single .identifier

/-- Takes the next piece of the prelude of an at-rule. -/
def atRulePrelude (reader : Reader) (body : AtRuleBody) (start : Nat) : Option Reader :=
  let c := reader.cursor.look
  if c = ';' then reader.fixedIn .separator 1 .selector
  else if c = '{' then reader.fixedIn .separator 1 (Style.blockContext body)
  else if c = '}' then reader.fixedIn .separator 1 .selector
  else if c = '(' || c = ')' || c = '[' || c = ']' then reader.fixed .separator 1
  else if c = ':' || Style.isOperatorChar c then reader.fixed .operator 1
  else reader.value start

/-- Takes the next piece left of the colon of a declaration. -/
def propertyKey (reader : Reader) (start : Nat) : Option Reader :=
  let c := reader.cursor.look
  if c = ':' then reader.fixedIn .operator 1 .propertyValue
  else if c = '}' then reader.fixedIn .separator 1 .selector
  else if c = '{' then reader.fixed .separator 1
  else if c = ';' then reader.fixed .operator 1
  else if c = '*' || Style.isNameChar c then
    (reader.seek (reader.cursor.moveBy 1)).takeWhile .reservedWord start Style.isNameChar
  else reader.single .identifier

/-- Whether the cursor is at the mark of an important declaration. -/
def atImportant (reader : Reader) : Option Bool :=
  if reader.cursor.look = '!' then reader.cursor.rest?.map (startsWithFolded "!important".toList)
  else some false

/-- Takes the next piece right of the colon of a declaration. -/
def propertyValue (reader : Reader) (start : Nat) : Option Reader :=
  let c := reader.cursor.look
  if c = ';' then reader.fixedIn .operator 1 .propertyKey
  else if c = '}' then reader.fixedIn .separator 1 .selector
  else if c = '{' || c = '(' || c = ')' || c = '[' || c = ']' then reader.fixed .separator 1
  else do
    if ← reader.atImportant then reader.fixed .preprocessor 10
    else if c = '#' && isHexDigit (reader.cursor.lookAt 1) then
      (reader.seek (reader.cursor.moveBy 1)).takeWhile .literalDecimalInt start isHexDigit
    else reader.value start

/-! ### Code -/

/-- Takes the next piece of the code of a context. -/
def styleCode (reader : Reader) (context : StyleContext) : Option Reader :=
  let start := reader.cursor.pos
  let c := reader.cursor.look
  if isBlank c then reader.blanks
  else if c = '/' && reader.cursor.lookAt 1 = '*' then
    (reader.seek (reader.cursor.moveBy 2)).styleComment context start
  else do
    if ← reader.atTag styleTag then reader.closeEmbedded styleTag
    else
      match Quote.ofChar? c with
      | some quote => (reader.seek (reader.cursor.moveBy 1)).styleLiteral quote context start
      | none =>
        match context with
        | .selector => reader.selector start
        | .atRule body => reader.atRulePrelude body start
        | .propertyKey => reader.propertyKey start
        | .propertyValue => reader.propertyValue start

/-- Takes the next piece in a state of a style sheet. -/
def style (reader : Reader) (state : StyleState) : Option Reader :=
  let start := reader.cursor.pos
  match state with
  | .code context => reader.styleCode context
  | .comment context => reader.styleComment context start
  | .literal quote context => reader.styleLiteral quote context start

end Reader

namespace Place

open Reader

/-! ## Literals and comments -/

/-- The body of a literal, after the quote that opens it. -/
theorem styleLiteral_reader (place : Place) (state : ResumeState) {lead : Nat}
    (hlead : lead ≤ place.rest.length) (quote : Quote) (context : StyleContext) :
    (place.reader state lead).styleLiteral quote context place.pos =
      some (place.answer (Style.literal quote context lead (place.rest.drop lead))) := by
  rw [styleLiteral, cursor_reader, Cursor.styleLiteral_stand, Cursor.styleLiteralEnd_drop,
    Style.literal]
  cases Style.closingQuoteWidth? quote (place.rest.drop lead) with
  | some width =>
    simp only [Option.map_some, Option.bind_eq_bind, Option.bind_some, seek_reader, goto_reader,
      if_true, emit_reader, Nat.add_comm width]
    rfl
  | none =>
    have hend : place.rest.length = lead + (place.rest.drop lead).length := by
      rw [List.length_drop]
      omega
    simp only [Option.map_none, Option.bind_eq_bind, Option.bind_some, seek_reader, goto_reader,
      Bool.false_eq_true, if_false, emit_reader, ← hend]
    rfl

/-- The body of a comment, after its opening. -/
theorem styleComment_reader (place : Place) (state : ResumeState) {lead : Nat}
    (hlead : lead ≤ place.rest.length) (context : StyleContext) :
    (place.reader state lead).styleComment context place.pos =
      some (place.answer (Style.comment context lead (place.rest.drop lead))) := by
  rw [styleComment, comment_reader place state hlead (by decide), Style.comment]
  cases commentWidth? styleTag (place.rest.drop lead) <;> rfl

/-! ## Selectors -/

/-- Colons and the name after them. -/
theorem pseudo_reader {place : Place} {rest : Text} (h : place.rest = ':' :: rest) :
    (place.reader (.style (.code .selector)) 0).pseudo place.pos =
      some (place.answer (Style.pseudo rest)) := by
  have hcolon : (place.reader (.style (.code .selector)) 0).cursor.lookAt 1 = ':' ↔
      rest.head? = some ':' := by
    rw [lookAt_one_eq h _ (by decide) (by decide) (by decide)]
  simp only [pseudo, hcolon, Style.pseudo]
  -- One colon or two are stepped over by their bytes, and the name starts after them.
  generalize hcolons : (if rest.head? = some ':' then 2 else 1) = colons
  have htake : AllAscii (place.rest.take colons) := by
    rw [← hcolons, h]
    split
    next hh =>
      obtain ⟨tail, rfl⟩ := List.head?_eq_some_iff.1 hh
      exact (by decide : AllAscii "::".toList)
    next => exact (by decide : AllAscii ":".toList)
  have hdrop : place.rest.drop colons = rest.drop (colons - 1) := by
    rw [← hcolons, h]
    split <;> rfl
  have hslice := Cursor.slice?_stand place.head place.rest colons
    (runLength Style.isNameChar (place.rest.drop colons))
  rw [take_runLength, hdrop] at hslice
  simp only [cursor_reader, Cursor.moveBy_stand_zero htake, Cursor.eat_stand uniform_isNameChar,
    Cursor.line_stand, hdrop, hslice, Option.bind_eq_bind, Option.bind_some]
  split
  next => rw [seek_reader, emit_reader]; rfl
  next => exact fixed_reader place _ _ htake

/-- An at sign and the name after it. -/
theorem atKeyword_reader {place : Place} {rest : Text} (h : place.rest = '@' :: rest)
    (context : StyleContext) :
    (place.reader (.style (.code context)) 0).atKeyword place.pos =
      some (place.answer (Style.atKeyword rest)) := by
  have htake : AllAscii (place.rest.take 1) := by
    rw [h]
    exact (by decide : AllAscii "@".toList)
  have hdrop : place.rest.drop 1 = rest := by
    rw [h]
    rfl
  have hslice := Cursor.slice?_stand place.head place.rest 1 (runLength Style.isNameChar rest)
  rw [hdrop, take_runLength] at hslice
  simp only [atKeyword, cursor_reader, Cursor.moveBy_stand_zero htake,
    Cursor.eat_stand uniform_isNameChar, seek_reader, Cursor.line_stand, hdrop, hslice,
    Option.bind_eq_bind, Option.bind_some, emit_reader, goto_reader]
  rfl

/-- The next piece of a selector. -/
theorem selector_reader {place : Place} {c : Char} {rest : Text} (h : place.rest = c :: rest) :
    (place.reader (.style (.code .selector)) 0).selector place.pos =
      some (place.answer (Style.selector c rest)) := by
  simp (disch := decide) only [selector, look_eq h, test_look h _ uniform_isNameChar,
    test_look h _ asciiOnly_style_isOperatorChar.uniform]
  rw [Style.selector]
  split
  next hc =>
    subst hc
    exact atKeyword_reader h _
  split
  next hc => exact fixedTo_one_reader h _ _ (by rw [hc]; rfl) _
  split
  next hc =>
    refine fixed_one_reader h _ _ ?_
    simp only [Bool.or_eq_true, decide_eq_true_eq] at hc
    rcases hc with ((((rfl | rfl) | rfl) | rfl) | rfl) | rfl <;> rfl
  split
  next hc =>
    subst hc
    exact pseudo_reader h
  split
  -- The number sign of an identifier is one byte, and so is the point of a class.
  next hc => exact sigil_reader h _ _ uniform_isNameChar (.inl (by rw [hc]; rfl))
  split
  next hc => exact fixed_one_reader h _ _ (by rw [hc]; rfl)
  split
  next hc => exact sigil_reader h _ _ uniform_isNameChar (.inl (by rw [hc]; rfl))
  split
  next hc => exact run_reader h _ _ (asciiOnly_beq (by decide)).uniform (by rw [hc]; rfl)
  split
  next hc => exact fixed_one_reader h _ _ (asciiOnly_style_isOperatorChar.isNonAscii_eq_false hc)
  split
  next hc => exact run_reader h _ _ uniform_isNameChar hc
  next => exact single_reader place _ _

/-! ## At-rules and declarations -/

/-- A number with its unit. -/
theorem styleNumber_reader (place : Place) (context : StyleContext) {width : Nat}
    (h : AllAscii (place.rest.take width)) :
    (place.reader (.style (.code context)) 0).styleNumber width place.pos =
      some (place.answer (Style.number width place.rest context)) := by
  have hpercent : (Cursor.stand place.head place.rest width).look = '%' ↔
      (place.rest.drop width).head? = some '%' :=
    Cursor.look_stand_eq _ _ width (by decide) (by decide)
  simp only [styleNumber, cursor_reader, Cursor.moveBy_stand_zero h, hpercent, Style.number,
    Style.unitWidth]
  split
  next hp =>
    rw [Cursor.moveBy_stand (allAscii_take_one (by decide) hp), seek_reader, emit_reader]
    rfl
  next =>
    -- The letters after the number are its unit if they are a known one.
    have hslice := Cursor.slice?_stand place.head place.rest width
      (runLength Char.isAlpha (place.rest.drop width))
    rw [take_runLength] at hslice
    simp only [Cursor.eat_stand asciiOnly_isAlpha.uniform, Cursor.line_stand, hslice,
      Option.bind_eq_bind, Option.bind_some]
    split
    · rw [seek_reader, emit_reader]
      rfl
    · rw [seek_reader, emit_reader]
      rfl

/-- A name, which is a call if a parenthesis follows. -/
theorem wordOrCall_reader {place : Place} {c : Char} {rest : Text} (h : place.rest = c :: rest)
    (context : StyleContext) (hc : Style.isNameChar c = true) :
    (place.reader (.style (.code context)) 0).wordOrCall place.pos =
      some (place.answer (Style.wordOrCall rest context)) := by
  have hrun : runLength Style.isNameChar place.rest = 1 + runLength Style.isNameChar rest := by
    rw [h, runLength, List.takeWhile_cons_of_pos hc, List.length_cons, Nat.add_comm]
    rfl
  have hdrop : place.rest.drop (1 + runLength Style.isNameChar rest) =
      rest.drop (runLength Style.isNameChar rest) := by
    rw [h, Nat.add_comm]
    rfl
  have hcall :
      (Cursor.stand place.head place.rest (1 + runLength Style.isNameChar rest)).look = '(' ↔
      (rest.drop (runLength Style.isNameChar rest)).head? = some '(' := by
    rw [Cursor.look_stand_eq _ _ _ (by decide) (by decide), hdrop]
  simp only [wordOrCall, cursor_reader, Cursor.eat_stand uniform_isNameChar, List.drop_zero,
    Nat.zero_add, hrun, hcall, seek_reader, emit_reader]
  rfl

/-- A number, a name or a single character. -/
theorem value_reader {place : Place} {c : Char} {rest : Text} (h : place.rest = c :: rest)
    (context : StyleContext) :
    (place.reader (.style (.code context)) 0).value place.pos =
      some (place.answer (match Style.numberWidth? (c :: rest) with
        | some width => Style.number width (c :: rest) context
        | none =>
          if Style.isNameChar c then Style.wordOrCall rest context
          else Style.code .identifier 1 context)) := by
  have hwidth : (place.reader (.style (.code context)) 0).styleNumberWidth? =
      some (Style.numberWidth? (c :: rest)) := by
    rw [styleNumberWidth?, cursor_reader, Cursor.rest?_stand, List.drop_zero, h]
    exact congrArg some (numberWidth?_bytewise _)
  simp only [value, hwidth, Option.bind_eq_bind, Option.bind_some, test_look h _ uniform_isNameChar]
  cases hn : Style.numberWidth? (c :: rest) with
  | some width =>
    have hascii : AllAscii (place.rest.take width) := by
      rw [h]
      exact allAscii_numberWidth? hn
    simp only [styleNumber_reader place context hascii, h]
  | none =>
    simp only
    split
    next hc => exact wordOrCall_reader h context hc
    next => exact single_reader place _ _

/-- The next piece of the prelude of an at-rule. -/
theorem atRulePrelude_reader {place : Place} {c : Char} {rest : Text} (h : place.rest = c :: rest)
    (body : AtRuleBody) :
    (place.reader (.style (.code (.atRule body))) 0).atRulePrelude body place.pos =
      some (place.answer (Style.atRulePrelude body c rest)) := by
  simp (disch := decide) only [atRulePrelude, look_eq h,
    test_look h _ asciiOnly_style_isOperatorChar.uniform]
  rw [Style.atRulePrelude]
  split
  next hc => exact fixedTo_one_reader h _ _ (by rw [hc]; rfl) _
  split
  next hc => exact fixedTo_one_reader h _ _ (by rw [hc]; rfl) _
  split
  next hc => exact fixedTo_one_reader h _ _ (by rw [hc]; rfl) _
  split
  next hc =>
    refine fixed_one_reader h _ _ ?_
    simp only [Bool.or_eq_true, decide_eq_true_eq] at hc
    rcases hc with ((rfl | rfl) | rfl) | rfl <;> rfl
  split
  next hc =>
    refine fixed_one_reader h _ _ ?_
    simp only [Bool.or_eq_true, decide_eq_true_eq] at hc
    rcases hc with rfl | hc
    · rfl
    · exact asciiOnly_style_isOperatorChar.isNonAscii_eq_false hc
  next => exact value_reader h _

/-- The next piece left of the colon of a declaration. -/
theorem propertyKey_reader {place : Place} {c : Char} {rest : Text} (h : place.rest = c :: rest) :
    (place.reader (.style (.code .propertyKey)) 0).propertyKey place.pos =
      some (place.answer (Style.propertyKey c rest)) := by
  simp (disch := decide) only [propertyKey, look_eq h, test_look h _ uniform_isNameChar]
  rw [Style.propertyKey]
  split
  next hc => exact fixedTo_one_reader h _ _ (by rw [hc]; rfl) _
  split
  next hc => exact fixedTo_one_reader h _ _ (by rw [hc]; rfl) _
  split
  next hc => exact fixed_one_reader h _ _ (by rw [hc]; rfl)
  split
  next hc => exact fixed_one_reader h _ _ (by rw [hc]; rfl)
  split
  next hc =>
    -- The asterisk is one byte; the first byte of a name may be one of several.
    simp only [Bool.or_eq_true, decide_eq_true_eq] at hc
    exact sigil_reader h _ _ uniform_isNameChar (hc.imp_left fun hc => by rw [hc]; rfl)
  next => exact single_reader place _ _

/-- Being at the mark of an important declaration is a property of the characters. -/
theorem atImportant_reader {place : Place} {c : Char} {rest : Text} (h : place.rest = c :: rest)
    (state : ResumeState) :
    (place.reader state 0).atImportant =
      some (c = '!' && startsWithFolded "important".toList rest) := by
  simp (disch := decide) only [atImportant, look_eq h]
  rw [cursor_reader, Cursor.rest?_stand, List.drop_zero, h, Option.map_some,
    startsWithFolded_bytewise (by decide)]
  split
  next hc =>
    subst hc
    rfl
  next hc => simp [hc]

/-- The next piece right of the colon of a declaration. -/
theorem propertyValue_reader {place : Place} {c : Char} {rest : Text} (h : place.rest = c :: rest) :
    (place.reader (.style (.code .propertyValue)) 0).propertyValue place.pos =
      some (place.answer (Style.propertyValue c rest)) := by
  simp (disch := decide) only [propertyValue, look_eq h]
  rw [Style.propertyValue]
  split
  next hc => exact fixedTo_one_reader h _ _ (by rw [hc]; rfl) _
  split
  next hc => exact fixedTo_one_reader h _ _ (by rw [hc]; rfl) _
  split
  next hc =>
    refine fixed_one_reader h _ _ ?_
    simp only [Bool.or_eq_true, decide_eq_true_eq] at hc
    rcases hc with (((rfl | rfl) | rfl) | rfl) | rfl <;> rfl
  have hhex : (c = '#' && isHexDigit
      ((place.reader (.style (.code .propertyValue)) 0).cursor.lookAt 1)) =
        (c = '#' && rest.head?.any isHexDigit) := by
    by_cases hc : c = '#'
    · subst hc
      rw [test_lookAt_one h _ (by decide) asciiOnly_isHexDigit.uniform (by decide)]
    · simp [hc]
  rw [atImportant_reader h, hhex]
  simp only [Option.bind_eq_bind, Option.bind_some]
  split
  next hc =>
    simp only [Bool.and_eq_true, decide_eq_true_eq] at hc
    obtain ⟨rfl, hs⟩ := hc
    -- The ten bytes of the mark are ten characters, in any letter case.
    refine fixed_reader place _ _ (?_ : AllAscii (place.rest.take 10))
    rw [h]
    exact allAscii_take_of_startsWithFolded (by decide : AllAscii "!important".toList) hs
  split
  next hc =>
    simp only [Bool.and_eq_true, decide_eq_true_eq] at hc
    exact sigil_reader h _ _ asciiOnly_isHexDigit.uniform (.inl (by rw [hc.1]; rfl))
  next => exact value_reader h _

/-! ## Code -/

/-- The next piece of the code of a context. -/
theorem styleCode_reader {place : Place} {c : Char} {rest : Text} (h : place.rest = c :: rest)
    (context : StyleContext) :
    (place.reader (.style (.code context)) 0).styleCode context =
      some (place.answer (Style.contextMove context c rest)) := by
  have hcomment : (c = '/' && (place.reader (.style (.code context)) 0).cursor.lookAt 1 = '*') =
      (c = '/' && rest.head? = some '*') := by
    by_cases hc : c = '/'
    · subst hc
      simp (disch := decide) only [lookAt_one_eq h]
    · simp [hc]
  simp (disch := decide) only [styleCode, pos_reader, test_look h _ asciiOnly_isBlank.uniform,
    look_eq h, hcomment, atTag_reader h, ofChar?_look h]
  unfold Style.contextMove
  split
  next hblank => exact blanks_reader h _ hblank
  split
  next hc =>
    simp only [Bool.and_eq_true, decide_eq_true_eq] at hc
    obtain ⟨rfl, hstar⟩ := hc
    obtain ⟨tail, rfl⟩ := List.head?_eq_some_iff.1 hstar
    have hmark : place.HasMark 2 := .of_append "/*".toList h (by decide)
    rw [hmark.seek, styleComment_reader place _ hmark.le, h]
    rfl
  simp only [Option.bind_eq_bind, Option.bind_some]
  split
  next hc =>
    simp only [Bool.and_eq_true, decide_eq_true_eq] at hc
    exact closeEmbedded_reader place _ (by decide) (by decide) (by rw [h]; exact hc.2)
  cases hq : Quote.ofChar? c with
  | some quote =>
    have hmark : place.HasMark 1 := .quote h hq
    simp only [hmark.seek, styleLiteral_reader place _ hmark.le, h]
    rfl
  | none =>
    -- Only what is left depends on the context.
    cases context with
    | selector => exact selector_reader h
    | atRule body => exact atRulePrelude_reader h body
    | propertyKey => exact propertyKey_reader h
    | propertyValue => exact propertyValue_reader h

/-- The reader of style sheets takes the move of a style sheet at every place. -/
theorem style_reader {place : Place} {c : Char} {rest : Text} (h : place.rest = c :: rest)
    (state : StyleState) :
    (place.reader (.style state) 0).style state =
      some (place.answer (Style.move state c rest)) := by
  have hrest : place.rest.drop 0 = c :: rest := h
  cases state with
  | code context => exact styleCode_reader h context
  | comment context =>
    simp only [style, pos_reader]
    rw [styleComment_reader place _ (Nat.zero_le _), hrest]
    rfl
  | literal quote context =>
    simp only [style, pos_reader]
    rw [styleLiteral_reader place _ (Nat.zero_le _), hrest]
    rfl

end Place

end LineLexer
