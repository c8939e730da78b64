import LineLexer.Grammar.Script.Regex
import LineLexer.Grammar.Script.Template
import LineLexer.Proofs.Bytewise.Reader

/-!
# Reading script literals

The loops over quoted literals, templates, interpolations and regular expressions, each as a turn
over the bytes. A turn steps over one whole character, or over an escape, whose own steps are by
single bytes over hexadecimal and octal digits (`Cursor.escape_stand`). From a place between
characters each loop ends after at most one turn for each character, and at the place that the
grammar measures.
-/

namespace LineLexer

namespace Cursor

/-! ## Escapes -/

/-- Moves past up to a number of bytes that pass a test. -/
def eatUpTo (p : Char → Bool) : Nat → Cursor → Cursor
  | 0, cursor => cursor
  | count + 1, cursor => if p cursor.look then eatUpTo p count (cursor.moveBy 1) else cursor

/-- Moves past up to a number of hexadecimal digits, and tells whether there are so many. -/
def hexDigits (count : Nat) (cursor : Cursor) : Bool × Cursor :=
  let digits := cursor.eatUpTo isHexDigit count
  (digits.pos == cursor.pos + count, digits)

/-- Moves past the digits and the closing brace of an escape, and tells whether both are there. -/
def bracedEscape (cursor : Cursor) : Bool × Cursor :=
  let digits := cursor.eat isHexDigit
  if cursor.pos < digits.pos ∧ digits.look = '}' then (true, digits.moveBy 1) else (false, digits)

/-- Moves past a backslash and what it escapes, and tells whether the escape is well formed. -/
def escape (cursor : Cursor) : Bool × Cursor :=
  let cursor := cursor.moveBy 1
  let c := cursor.look
  if c = 'x' then (cursor.moveBy 1).hexDigits 2
  else if c = 'u' then
    if cursor.lookAt 1 = '{' then (cursor.moveBy 2).bracedEscape
    else (cursor.moveBy 1).hexDigits 4
  else if isOctalDigit c then (true, cursor.eatUpTo isOctalDigit 3)
  else (true, cursor.moveChar)

/-- Moving past up to a number of characters that pass a test of ASCII characters. -/
theorem eatUpTo_stand {p : Char → Bool} (hp : AsciiOnly p) (h0 : p '\x00' = false)
    (head text : Text) (n count : Nat) :
    (stand head text n).eatUpTo p count =
      stand head text (n + runLength p ((text.drop n).take count)) := by
  induction count generalizing n with
  | zero => simp [eatUpTo, runLength]
  | succ count ih =>
    rw [eatUpTo, test_look_stand hp.uniform h0]
    cases hdrop : text.drop n with
    | nil => simp [runLength]
    | cons c rest =>
      have hrest : text.drop (n + 1) = rest := by rw [← List.drop_drop, hdrop]; rfl
      rw [List.head?_cons, Option.any_some, List.take_succ_cons, runLength, List.takeWhile_cons]
      cases hc : p c with
      | true =>
        have hone : AllAscii ((text.drop n).take 1) :=
          allAscii_take_one (hp.isNonAscii_eq_false hc) (by rw [hdrop]; rfl)
        rw [if_pos rfl, if_pos rfl, moveBy_stand hone, ih, hrest, List.length_cons, runLength,
          Nat.add_assoc, Nat.add_comm 1]
      | false => rfl

/-- Whether there are enough hexadecimal digits. -/
theorem hexDigits_stand (head text : Text) (n count : Nat) :
    (stand head text n).hexDigits count =
      (Script.hexWidth count (text.drop n) == count,
        stand head text (n + Script.hexWidth count (text.drop n))) := by
  have hle := runLength_le isHexDigit ((text.drop n).take count)
  rw [← Script.hexWidth, List.length_take] at hle
  have hascii : AllAscii ((text.drop n).take (Script.hexWidth count (text.drop n))) := by
    have hrun := allAscii_take_runLength asciiOnly_isHexDigit ((text.drop n).take count)
    rwa [← Script.hexWidth, List.take_take,
      Nat.min_eq_left (Nat.le_trans hle (Nat.min_le_left ..))] at hrun
  have hpos : (stand head text (n + Script.hexWidth count (text.drop n))).pos =
      (stand head text n).pos + Script.hexWidth count (text.drop n) :=
    pos_stand_add hascii (Nat.le_trans hle (Nat.min_le_right ..))
  rw [hexDigits, eatUpTo_stand asciiOnly_isHexDigit (by decide), ← Script.hexWidth, hpos]
  simp

/-- The digits and the closing brace of an escape. -/
theorem bracedEscape_stand (head text : Text) (n : Nat) :
    (stand head text n).bracedEscape =
      ((Script.bracedEscape (text.drop n)).2,
        stand head text (n + (Script.bracedEscape (text.drop n)).1)) := by
  have hascii := allAscii_take_runLength asciiOnly_isHexDigit (text.drop n)
  have hpos : (stand head text (n + runLength isHexDigit (text.drop n))).pos =
      (stand head text n).pos + runLength isHexDigit (text.drop n) :=
    pos_stand_add hascii (runLength_le ..)
  have hbrace : (stand head text (n + runLength isHexDigit (text.drop n))).look = '}' ↔
      ((text.drop n).drop (runLength isHexDigit (text.drop n))).head? = some '}' := by
    rw [look_stand_eq head text _ (by decide) (by decide), List.drop_drop]
  have hdigits : (stand head text n).pos <
      (stand head text n).pos + runLength isHexDigit (text.drop n) ↔
        0 < runLength isHexDigit (text.drop n) := by omega
  simp only [bracedEscape, eat_stand asciiOnly_isHexDigit.uniform, hpos, hbrace, hdigits,
    Script.bracedEscape]
  split
  next hc =>
    rw [List.drop_drop] at hc
    rw [moveBy_stand (allAscii_take_one (by decide) hc.2), Nat.add_assoc]
  next => rfl

/-- An escape, from its backslash on. -/
theorem escape_stand (head rest : Text) :
    (stand head ('\\' :: rest) 0).escape =
      ((Script.escape rest).2, stand head ('\\' :: rest) (1 + (Script.escape rest).1)) := by
  have hlook : (stand head ('\\' :: rest) 1).look = byteAt rest 0 := look_stand ..
  rw [escape, moveBy_one_stand head (by decide)]
  cases rest with
  | nil =>
    -- The backslash ends the line, so there is nothing to step over.
    have hnul : byteAt [] 0 = '\x00' := rfl
    rw [hlook, hnul, if_neg (by decide), if_neg (by decide), if_neg (by decide), moveChar_stand]
    exact congrArg _ (stand_of_le (by decide) head)
  | cons c rest =>
    have hnext : isNonAscii c = false → (stand head ('\\' :: c :: rest) 1).moveBy 1 =
        stand head ('\\' :: c :: rest) 2 := fun hc => moveBy_stand (allAscii_take_one hc rfl)
    have hbrace : (stand head ('\\' :: 'u' :: rest) 1).lookAt 1 = '{' ↔ rest.head? = some '{' := by
      rw [lookAt_stand, ← byteAt_eq (by decide) (by decide)]
      rfl
    simp (disch := decide) only [hlook, byteAt_cons_eq,
      test_byteAt_cons asciiOnly_isOctalDigit.uniform, Script.escape]
    split
    next hc =>
      subst hc
      rw [hnext (by decide), hexDigits_stand, ← Nat.add_assoc]
      rfl
    split
    next hc =>
      subst hc
      simp only [hbrace]
      split
      next hopen =>
        obtain ⟨tail, rfl⟩ := List.head?_eq_some_iff.1 hopen
        have hascii : AllAscii ((('\\' :: 'u' :: '{' :: tail).drop 1).take 2) :=
          (by decide : AllAscii ['u', '{'])
        rw [moveBy_stand hascii, bracedEscape_stand, ← Nat.add_assoc]
        rfl
      next =>
        rw [hnext (by decide), hexDigits_stand, ← Nat.add_assoc]
        rfl
    split
    next => rw [eatUpTo_stand asciiOnly_isOctalDigit (by decide)]; rfl
    next => rw [moveChar_stand]

/-! ## Quoted literals -/

/-- A turn of the loop over the body of a quoted literal, valid so far. -/
def literalTurn (quote : Quote) (state : Cursor × Bool) :
    Turn (Cursor × Bool) (Cursor × Bool × Script.LiteralEnd) :=
  let (cursor, valid) := state
  if cursor.atEnd then .done (cursor, valid, .unterminated)
  else if cursor.look = '\\' then
    if cursor.pos + 1 = cursor.length then .done (cursor.moveBy 1, valid, .continued)
    else .again (cursor.escape.2, valid && cursor.escape.1)
  else if cursor.look = quote.char then .done (cursor.moveBy 1, valid, .closed)
  else .again (cursor.moveChar, valid)

/-- Moves over the body of a quoted literal. -/
def literal (quote : Quote) (valid : Bool) (cursor : Cursor) :
    Option (Cursor × Bool × Script.LiteralEnd) :=
  loop (literalTurn quote) (cursor.length + 1) (cursor, valid)

/-- A turn over the body of a quoted literal moves past one character or one escape. -/
theorem literalTurn_cons (quote : Quote) (head : Text) (valid : Bool) (c : Char) (rest : Text) :
    literalTurn quote (stand head (c :: rest) 0, valid) =
      if c = '\\' then
        if rest.isEmpty then .done (stand head (c :: rest) 1, valid, .continued)
        else .again (stand head (c :: rest) (1 + (Script.escape rest).1),
          valid && (Script.escape rest).2)
      else if c = quote.char then .done (stand head (c :: rest) 1, valid, .closed)
      else .again (stand head (c :: rest) 1, valid) := by
  simp (disch := decide) only [literalTurn, atEnd_stand_cons, Bool.false_eq_true, if_false,
    look_stand_cons head, look_stand_cons head quote.isNonAscii_char, moveChar_stand]
  split
  next hc =>
    subst hc
    simp (disch := decide) only [pos_succ_stand_cons, moveBy_one_stand, escape_stand,
      List.isEmpty_iff]
  split
  next hc => rw [moveBy_one_stand head (by rw [hc]; exact quote.isNonAscii_char)]
  next => rfl

/-- Where the loop over the body of a quoted literal ends. -/
def literalEnd (quote : Quote) (head text : Text) (valid : Bool) :
    Cursor × Bool × Script.LiteralEnd :=
  let body := Script.literalBody quote valid text
  (stand head text body.width, body.valid, body.ending)

/-- The loop over the body of a quoted literal goes over characters. -/
theorem overCharacters_literalTurn (quote : Quote) :
    OverCharacters (literalTurn quote) Prod.mk (literalEnd quote) where
  nil head valid := by simp [literalTurn, literalEnd, Script.literalBody]
  cons head c rest valid := by
    -- What ends the rest after some characters ends the text so many characters later.
    have hafter : ∀ n valid,
        literalEnd quote (head ++ (c :: rest).take (n + 1)) (rest.drop n) valid =
          (stand head (c :: rest)
              ((Script.literalBody quote valid (rest.drop n)).after (n + 1)).width,
            (Script.literalBody quote valid (rest.drop n)).valid,
            (Script.literalBody quote valid (rest.drop n)).ending) := fun n valid =>
      congrArg (·, _) (stand_drop head (c :: rest) (n + 1) _)
    rw [literalTurn_cons]
    by_cases hescape : c = '\\'
    · cases hrest : rest.isEmpty with
      | true => exact .inl (by simp [hescape, hrest, literalEnd, Script.literalBody])
      | false =>
        refine .inr ⟨(Script.escape rest).1, valid && (Script.escape rest).2, ?_, ?_⟩
        · simp [hescape, Nat.add_comm]
        · rw [hafter, literalEnd, Script.literalBody]
          simp [hescape, hrest, Nat.add_comm, Script.LiteralBody.after]
    by_cases hquote : c = quote.char
    · exact .inl (by simp only [literalEnd, Script.literalBody, if_neg hescape, if_pos hquote])
    · refine .inr ⟨0, valid, by simp [hescape, hquote], ?_⟩
      rw [hafter, literalEnd, Script.literalBody]
      simp [hescape, hquote, Script.LiteralBody.after]

/-- Moving over the body of a quoted literal from a place between characters. -/
theorem literal_stand (quote : Quote) (valid : Bool) (head text : Text) (n : Nat) :
    (stand head text n).literal quote valid =
      some (stand head text (n + (Script.literalBody quote valid (text.drop n)).width),
        (Script.literalBody quote valid (text.drop n)).valid,
        (Script.literalBody quote valid (text.drop n)).ending) := by
  have hloop := (overCharacters_literalTurn quote).loop_stand head text n valid
  rw [literalEnd, stand_drop] at hloop
  exact hloop

/-! ## Templates -/

/-- A turn of the loop over the text of a template, valid so far. -/
def templateTurn (state : Cursor × Bool) :
    Turn (Cursor × Bool) (Cursor × Bool × Script.TemplateEnd) :=
  let (cursor, valid) := state
  if cursor.atEnd then .done (cursor, valid, .unclosed)
  else if cursor.look = '`' then .done (cursor.moveBy 1, valid, .closed)
  else if cursor.look = '\\' then
    -- A backslash at the end of the line escapes the line break, which is not in the line.
    if cursor.pos + 1 = cursor.length then .again (cursor.moveBy 1, valid)
    else .again (cursor.escape.2, valid && cursor.escape.1)
  else if cursor.look = '$' ∧ cursor.lookAt 1 = '{' then .done (cursor, valid, .interpolated)
  else .again (cursor.moveChar, valid)

/-- Moves over the text of a template. -/
def template (valid : Bool) (cursor : Cursor) : Option (Cursor × Bool × Script.TemplateEnd) :=
  loop templateTurn (cursor.length + 1) (cursor, valid)

/-- A turn over the text of a template moves past one character or one escape. -/
theorem templateTurn_cons (head : Text) (valid : Bool) (c : Char) (rest : Text) :
    templateTurn (stand head (c :: rest) 0, valid) =
      if c = '`' then .done (stand head (c :: rest) 1, valid, .closed)
      else if c = '\\' then
        .again (stand head (c :: rest) (1 + (Script.escape rest).1),
          valid && (Script.escape rest).2)
      else if c = '$' && rest.head? = some '{' then
        .done (stand head (c :: rest) 0, valid, .interpolated)
      else .again (stand head (c :: rest) 1, valid) := by
  have hopen : (c = '$' ∧ (stand head (c :: rest) 0).lookAt 1 = '{') ↔
      (c = '$' && rest.head? = some '{') = true := by
    rw [Bool.and_eq_true, decide_eq_true_eq, decide_eq_true_eq]
    refine and_congr_right fun hc => ?_
    subst hc
    rw [lookAt_stand, List.drop_zero, byteAt_cons_succ (by decide),
      byteAt_eq (by decide) (by decide)]
  simp (disch := decide) only [templateTurn, atEnd_stand_cons, Bool.false_eq_true, if_false,
    look_stand_cons head, moveChar_stand, hopen]
  split
  next hc => rw [moveBy_one_stand head (by rw [hc]; rfl)]
  split
  next hc =>
    subst hc
    simp (disch := decide) only [pos_succ_stand_cons, moveBy_one_stand, escape_stand]
    split
    next hrest => simp [hrest, Script.escape]
    next => rfl
  next => rfl

/-- Where the loop over the text of a template ends. -/
def templateEnd (head text : Text) (valid : Bool) : Cursor × Bool × Script.TemplateEnd :=
  let body := Script.templateBody valid text
  (stand head text body.width, body.valid, body.ending)

/-- The loop over the text of a template goes over characters. -/
theorem overCharacters_templateTurn : OverCharacters templateTurn Prod.mk templateEnd where
  nil head valid := by simp [templateTurn, templateEnd, Script.templateBody]
  cons head c rest valid := by
    have hafter : ∀ n valid, templateEnd (head ++ (c :: rest).take (n + 1)) (rest.drop n) valid =
        (stand head (c :: rest)
            ((Script.templateBody valid (rest.drop n)).after (n + 1)).width,
          (Script.templateBody valid (rest.drop n)).valid,
          (Script.templateBody valid (rest.drop n)).ending) := fun n valid =>
      congrArg (·, _) (stand_drop head (c :: rest) (n + 1) _)
    rw [templateTurn_cons]
    by_cases hclose : c = '`'
    · exact .inl (by simp only [templateEnd, Script.templateBody, if_pos hclose])
    by_cases hescape : c = '\\'
    · refine .inr ⟨(Script.escape rest).1, valid && (Script.escape rest).2, ?_, ?_⟩
      · rw [if_neg hclose, if_pos hescape, Nat.add_comm]
      · rw [hafter, templateEnd, Script.templateBody, if_neg hclose, if_pos hescape, Nat.add_comm]
        rfl
    by_cases hopen : (c = '$' && rest.head? = some '{') = true
    · exact .inl (by simp only [templateEnd, Script.templateBody, if_neg hclose, if_neg hescape,
        if_pos hopen])
    · refine .inr ⟨0, valid, ?_, ?_⟩
      · rw [if_neg hclose, if_neg hescape, if_neg hopen]
      · rw [hafter, templateEnd, Script.templateBody, if_neg hclose, if_neg hescape, if_neg hopen]
        rfl

/-- Moving over the text of a template from a place between characters. -/
theorem template_stand (valid : Bool) (head text : Text) (n : Nat) :
    (stand head text n).template valid =
      some (stand head text (n + (Script.templateBody valid (text.drop n)).width),
        (Script.templateBody valid (text.drop n)).valid,
        (Script.templateBody valid (text.drop n)).ending) := by
  have hloop := overCharacters_templateTurn.loop_stand head text n valid
  rw [templateEnd, stand_drop] at hloop
  exact hloop

/-! ## Interpolations -/

/-- A turn of the loop over an interpolation, with a number of open braces so far. -/
def interpolationTurn (state : Cursor × Depth) :
    Turn (Cursor × Depth) (Cursor × Option Depth) :=
  let (cursor, depth) := state
  if cursor.atEnd then .done (cursor, some depth)
  else if cursor.look = '{' then .again (cursor.moveBy 1, depth.nest)
  else if cursor.look = '}' then
    if depth.unnest.val = 0 then .done (cursor.moveBy 1, none)
    else .again (cursor.moveBy 1, depth.unnest)
  else .again (cursor.moveChar, depth)

/-- Moves over an interpolation, and gives the depth of the braces it leaves open. -/
def interpolation (depth : Depth) (cursor : Cursor) : Option (Cursor × Option Depth) :=
  loop interpolationTurn (cursor.length + 1) (cursor, depth)

/-- A turn over an interpolation moves past one character. -/
theorem interpolationTurn_cons (head : Text) (depth : Depth) (c : Char) (rest : Text) :
    interpolationTurn (stand head (c :: rest) 0, depth) =
      if c = '{' then .again (stand head (c :: rest) 1, depth.nest)
      else if c = '}' then
        if depth.unnest.val = 0 then .done (stand head (c :: rest) 1, none)
        else .again (stand head (c :: rest) 1, depth.unnest)
      else .again (stand head (c :: rest) 1, depth) := by
  simp (disch := decide) only [interpolationTurn, atEnd_stand_cons, Bool.false_eq_true, if_false,
    look_stand_cons head, moveChar_stand]
  split
  next hc => rw [moveBy_one_stand head (by rw [hc]; rfl)]
  split
  next hc => rw [moveBy_one_stand head (by rw [hc]; rfl)]
  next => rfl

/-- Where the loop over an interpolation ends. -/
def interpolationEnd (head text : Text) (depth : Depth) : Cursor × Option Depth :=
  let body := Script.interpolationBody depth text
  (stand head text body.width, body.openBraces)

/-- The loop over an interpolation goes over characters. -/
theorem overCharacters_interpolationTurn :
    OverCharacters interpolationTurn Prod.mk interpolationEnd where
  nil head depth := by simp [interpolationTurn, interpolationEnd, Script.interpolationBody]
  cons head c rest depth := by
    have hafter : ∀ depth, interpolationEnd (head ++ (c :: rest).take 1) rest depth =
        (stand head (c :: rest) ((Script.interpolationBody depth rest).after 1).width,
          (Script.interpolationBody depth rest).openBraces) := fun depth =>
      congrArg (·, _) (stand_drop head (c :: rest) 1 _)
    rw [interpolationTurn_cons]
    by_cases hopen : c = '{'
    · refine .inr ⟨0, depth.nest, by rw [if_pos hopen], ?_⟩
      rw [List.drop_zero, hafter, interpolationEnd, Script.interpolationBody, if_pos hopen]
      rfl
    by_cases hclose : c = '}'
    · by_cases hzero : depth.unnest.val = 0
      · exact .inl (by simp only [interpolationEnd, Script.interpolationBody, if_neg hopen,
          if_pos hclose, if_pos hzero])
      · refine .inr ⟨0, depth.unnest, by rw [if_neg hopen, if_pos hclose, if_neg hzero], ?_⟩
        rw [List.drop_zero, hafter, interpolationEnd, Script.interpolationBody, if_neg hopen,
          if_pos hclose, if_neg hzero]
        rfl
    · refine .inr ⟨0, depth, by rw [if_neg hopen, if_neg hclose], ?_⟩
      rw [List.drop_zero, hafter, interpolationEnd, Script.interpolationBody, if_neg hopen,
        if_neg hclose]
      rfl

/-- Moving over an interpolation from a place between characters. -/
theorem interpolation_stand (depth : Depth) (head text : Text) (n : Nat) :
    (stand head text n).interpolation depth =
      some (stand head text (n + (Script.interpolationBody depth (text.drop n)).width),
        (Script.interpolationBody depth (text.drop n)).openBraces) := by
  have hloop := overCharacters_interpolationTurn.loop_stand head text n depth
  rw [interpolationEnd, stand_drop] at hloop
  exact hloop

/-! ## Regular expressions -/

/-- A turn of the loop over a pattern, in a character class or not. Behind the closing slash, the
flags are stepped over. -/
def patternTurn (state : Cursor × Bool) : Turn (Cursor × Bool) (Option Cursor) :=
  let (cursor, inClass) := state
  if cursor.atEnd then .done none
  else if cursor.look = '\\' then .again ((cursor.moveBy 1).moveChar, inClass)
  else if cursor.look = '[' then .again (cursor.moveBy 1, true)
  else if cursor.look = ']' then .again (cursor.moveBy 1, false)
  else if cursor.look = '/' ∧ inClass = false then
    .done (some ((cursor.moveBy 1).eat Char.isAlpha))
  else .again (cursor.moveChar, inClass)

/-- Moves over a pattern and its flags, if the line holds its closing slash. -/
def pattern (cursor : Cursor) : Option (Option Cursor) :=
  loop patternTurn (cursor.length + 1) (cursor, false)

/-- A turn over a pattern moves past one character, or past a backslash and the character after
it. -/
theorem patternTurn_cons (head : Text) (inClass : Bool) (c : Char) (rest : Text) :
    patternTurn (stand head (c :: rest) 0, inClass) =
      if c = '\\' then .again (stand head (c :: rest) 2, inClass)
      else if c = '/' ∧ inClass = false then
        .done (some (stand head (c :: rest) (1 + runLength Char.isAlpha rest)))
      else .again (stand head (c :: rest) 1, c == '[' || (c != ']' && inClass)) := by
  simp (disch := decide) only [patternTurn, atEnd_stand_cons, Bool.false_eq_true, if_false,
    look_stand_cons head, moveChar_stand]
  by_cases hescape : c = '\\'
  · rw [if_pos hescape, if_pos hescape, moveBy_one_stand head (by rw [hescape]; rfl),
      moveChar_stand]
  rw [if_neg hescape, if_neg hescape]
  by_cases hleft : c = '['
  · subst hleft
    rw [if_pos rfl, if_neg (by simp), moveBy_one_stand head (by decide)]
    rfl
  rw [if_neg hleft]
  by_cases hright : c = ']'
  · subst hright
    rw [if_pos rfl, if_neg (by simp), moveBy_one_stand head (by decide)]
    rfl
  rw [if_neg hright]
  split
  next hc =>
    rw [moveBy_one_stand head (by rw [hc.1]; rfl), eat_stand asciiOnly_isAlpha.uniform]
    rfl
  next =>
    have hl : (c == '[') = false := beq_eq_false_iff_ne.2 hleft
    have hr : (c != ']') = true := bne_iff_ne.2 hright
    rw [hl, hr, Bool.false_or, Bool.true_and]

/-- The closing slash of a pattern, by the first character. -/
theorem patternWidth?_cons (inClass : Bool) (c : Char) (rest : Text) :
    Script.patternWidth? inClass (c :: rest) =
      if c = '\\' then (Script.patternWidth? inClass (rest.drop 1)).map (· + 2)
      else if c = '/' ∧ inClass = false then some 1
      else (Script.patternWidth? (c == '[' || (c != ']' && inClass)) rest).map (· + 1) := by
  cases rest with
  | cons d rest => rw [Script.patternWidth?, List.drop_one, List.tail_cons]
  | nil =>
    rw [Script.patternWidth?]
    by_cases hescape : c = '\\'
    · simp [hescape, Script.patternWidth?]
    · simp [hescape, Script.patternWidth?]

/-- Where the loop over a pattern ends. -/
def patternEnd (head text : Text) (inClass : Bool) : Option Cursor :=
  (Script.patternWidth? inClass text).map fun width =>
    stand head text (width + runLength Char.isAlpha (text.drop width))

/-- A slash that closes the rest after some characters closes the text so many characters later. -/
theorem patternEnd_drop (head text : Text) (n : Nat) (inClass : Bool) :
    patternEnd (head ++ text.take n) (text.drop n) inClass =
      ((Script.patternWidth? inClass (text.drop n)).map (· + n)).map fun width =>
        stand head text (width + runLength Char.isAlpha (text.drop width)) := by
  rw [patternEnd, Option.map_map]
  refine Option.map_congr fun width _ => ?_
  rw [stand_drop, List.drop_drop, ← Nat.add_assoc, Nat.add_comm n width]
  rfl

/-- The loop over a pattern goes over characters. -/
theorem overCharacters_patternTurn : OverCharacters patternTurn Prod.mk patternEnd where
  nil head inClass := by simp [patternTurn, patternEnd, Script.patternWidth?]
  cons head c rest inClass := by
    rw [patternTurn_cons]
    by_cases hescape : c = '\\'
    · refine .inr ⟨1, inClass, by rw [if_pos hescape], ?_⟩
      refine (patternEnd_drop head (c :: rest) 2 inClass).trans ?_
      rw [patternEnd, patternWidth?_cons, if_pos hescape]
      rfl
    by_cases hclose : c = '/' ∧ inClass = false
    · refine .inl ?_
      rw [if_neg hescape, if_pos hclose, patternEnd, patternWidth?_cons, if_neg hescape,
        if_pos hclose]
      rfl
    · refine .inr ⟨0, c == '[' || (c != ']' && inClass), by rw [if_neg hescape, if_neg hclose], ?_⟩
      refine (patternEnd_drop head (c :: rest) 1 _).trans ?_
      rw [patternEnd, patternWidth?_cons, if_neg hescape, if_neg hclose]
      rfl

/-- Moving over a pattern and its flags from a place between characters. -/
theorem pattern_stand (head text : Text) (n : Nat) :
    (stand head text n).pattern =
      some ((Script.patternWidth? false (text.drop n)).map fun width =>
        stand head text (n + (width + runLength Char.isAlpha ((text.drop n).drop width)))) := by
  have hloop := overCharacters_patternTurn.loop_stand head text n false
  rw [patternEnd] at hloop
  simp only [stand_drop] at hloop
  exact hloop

end Cursor

end LineLexer
