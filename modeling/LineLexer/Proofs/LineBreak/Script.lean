import LineLexer.Proofs.Bytewise.Script
import LineLexer.Proofs.LineBreak.Measure
import LineLexer.Proofs.ClosingTag.Script

/-!
# Constructs of scripts across a line break

Comments, literals and templates go on over lines. Their bodies do so at any place that is not
within an escape, and at the end of a line no escape is open: one that is cut short there is
malformed, with the line break behind it or without (`escape_join`), and a backslash alone escapes
the break. So a body that is open at the end of a line goes on in the line behind it with what is
known of it by then, that it is valid so far or how many braces are open (`literalBody_join`,
`templateBody_join`, `interpolationBody_join`).

A move of a construct thus joins, it ends the construct in error at the end of the line, or its last
piece takes in what the state that it leads to takes of the line behind (`Resumes`), where a literal
may turn out to be malformed (`exists_resume`).
-/

namespace LineLexer

/-- The kind of the error that a literal may turn out to be. -/
def Kind.errorKind? : Kind → Option Kind
  | .literalStringDouble | .literalBackquote => some .errorString
  | .literalChar => some .errorChar
  | _ => none

/-- Kinds of what goes on over lines in scripts. -/
def Kind.isConstruct (kind : Kind) : Bool :=
  kind == .commentMultiline || kind.isScriptLiteral

namespace Script

/-- What goes on over lines in scripts. -/
inductive Construct where
  | comment
  | literal (quote : Quote)
  | template
  deriving DecidableEq, Repr

/-- The construct that a state is within, if it is not in code. An interpolation is part of its
template. -/
def construct? : ScriptState → Option Construct
  | .code => none
  | .comment => some .comment
  | .literal quote _ => some (.literal quote)
  | .template _ | .interpolation _ => some .template

/-- The kinds of the tokens of a construct. -/
def Construct.kinds : Construct → List Kind
  | .comment => [.commentMultiline]
  | .literal quote => [literalKind quote, literalErrorKind quote]
  | .template => [templateKind true, templateKind false, .variableName]

/-- The kinds of a construct are those of constructs. -/
theorem Construct.isConstruct_of_mem {construct : Construct} {kind : Kind}
    (h : kind ∈ construct.kinds) : kind.isConstruct = true := by
  have hkinds : ∀ construct : Construct, ∀ kind ∈ construct.kinds, kind.isConstruct = true := by
    rintro (_ | (_ | _) | _) <;> decide
  exact hkinds construct kind h

section

variable {text next : Text}

/-! ## Escapes -/

/-- A run among the first characters that a line break ends is as wide. -/
theorem runLength_take_join {p : Char → Bool} (h : p '\n' = false) (count : Nat) :
    runLength p ((text ++ '\n' :: next).take count) = runLength p (text.take count) := by
  rw [List.take_append]
  cases hmore : count - text.length with
  | zero => rw [List.take_zero, List.append_nil]
  | succ more =>
    have hall : text.take count = text := List.take_of_length_le (by omega)
    rw [hall, List.take_succ_cons, runLength_join h]

/-- Hexadecimal digits are the same. -/
theorem hexWidth_join (count : Nat) :
    hexWidth count (text ++ '\n' :: next) = hexWidth count text :=
  runLength_take_join (by decide) count

/-- Hexadecimal digits lie in the text. -/
theorem hexWidth_le (count : Nat) (text : Text) : hexWidth count text ≤ text.length := by
  have := runLength_le isHexDigit (text.take count)
  rw [List.length_take] at this
  rw [hexWidth]
  omega

/-- An escape in braces is the same. -/
theorem bracedEscape_join : bracedEscape (text ++ '\n' :: next) = bracedEscape text := by
  have hle := runLength_le isHexDigit text
  simp only [bracedEscape, runLength_join (p := isHexDigit) (by decide), drop_join hle,
    head?_join_eq_some (show '}' ≠ '\n' by decide)]

/-- An escape in braces lies in the text. -/
theorem bracedEscape_le (text : Text) : (bracedEscape text).1 ≤ text.length := by
  have hle := runLength_le isHexDigit text
  simp only [bracedEscape]
  split
  next h =>
    have := lt_of_head?_drop h.2
    omega
  next => exact hle

/-- An escape is the same, unless its backslash ends the text. -/
theorem escape_join (h : text ≠ []) : escape (text ++ '\n' :: next) = escape text := by
  obtain ⟨c, rest, rfl⟩ := List.exists_cons_of_ne_nil h
  have hoctal : runLength isOctalDigit ((c :: (rest ++ '\n' :: next)).take 3) =
      runLength isOctalDigit ((c :: rest).take 3) := by
    rw [← List.cons_append]
    exact runLength_take_join (by decide) 3
  simp only [List.cons_append, escape, hexWidth_join, hoctal,
    head?_join_eq_some (show '{' ≠ '\n' by decide)]
  split
  · rfl
  split
  · split
    next hbrace =>
      obtain ⟨tail, rfl⟩ := List.head?_eq_some_iff.1 hbrace
      simp only [List.cons_append, List.drop_succ_cons, List.drop_zero, bracedEscape_join]
    · rfl
  · rfl

/-- An escape lies in the text. -/
theorem escape_le (text : Text) : (escape text).1 ≤ text.length := by
  cases text with
  | nil => exact Nat.le_refl 0
  | cons c rest =>
    have htwo := hexWidth_le 2 rest
    have hfour := hexWidth_le 4 rest
    have hoctal := runLength_le isOctalDigit ((c :: rest).take 3)
    rw [List.length_take] at hoctal
    simp only [escape, List.length_cons] at hoctal ⊢
    split
    · omega
    split
    · split
      next hbrace =>
        obtain ⟨tail, rfl⟩ := List.head?_eq_some_iff.1 hbrace
        have := bracedEscape_le tail
        simp only [List.drop_succ_cons, List.drop_zero, List.length_cons]
        omega
      · omega
    split
    · omega
    · omega

/-- A backslash at the end of a line escapes the break. -/
theorem escape_break : escape ('\n' :: next) = (1, true) := by
  simp [escape, isOctalDigit]

/-! ## Literals -/

section

variable (lead : Nat) (body : LiteralBody)

@[simp] theorem width_literalBody_after : (body.after lead).width = lead + body.width := rfl

@[simp] theorem valid_literalBody_after : (body.after lead).valid = body.valid := rfl

@[simp] theorem ending_literalBody_after : (body.after lead).ending = body.ending := rfl

@[simp] theorem literalBody_after_after (more : Nat) :
    (body.after lead).after more = body.after (more + lead) := by
  simp [LiteralBody.after, Nat.add_assoc]

end

section

variable {quote : Quote} {valid : Bool}

/-- A backslash that does not end the text takes an escape. -/
theorem literalBody_escape (h : text ≠ []) :
    literalBody quote valid ('\\' :: text) =
      (literalBody quote (valid && (escape text).2) (text.drop (escape text).1)).after
        (1 + (escape text).1) := by
  rw [literalBody, if_pos rfl, if_neg (by simpa using h)]

/-- Any other character than a backslash and the quote is taken as it is. -/
theorem literalBody_char {c : Char} (hescape : c ≠ '\\') (hquote : c ≠ quote.char) :
    literalBody quote valid (c :: text) = (literalBody quote valid text).after 1 := by
  rw [literalBody, if_neg hescape, if_neg hquote]

/-- A line break is taken as it is. -/
theorem literalBody_break :
    literalBody quote valid ('\n' :: next) = (literalBody quote valid next).after 1 :=
  literalBody_char (by decide) (by cases quote <;> decide)

/-- The body of a literal lies in the text. -/
theorem literalBody_width_le (quote : Quote) (valid : Bool) (text : Text) :
    (literalBody quote valid text).width ≤ text.length := by
  fun_induction literalBody quote valid text with
  | case1 => exact Nat.le_refl 0
  | case2 => simp
  | case3 valid rest hrest ih =>
    have := escape_le rest
    simp only [width_literalBody_after, List.length_drop, List.length_cons] at ih ⊢
    omega
  | case4 => simp
  | case5 valid c rest hescape hquote ih =>
    simp only [width_literalBody_after, List.length_cons]
    omega

/-- A literal that is not closed takes all of the text. -/
theorem literalBody_width_eq (h : (literalBody quote valid text).ending ≠ .closed) :
    (literalBody quote valid text).width = text.length := by
  fun_induction literalBody quote valid text with
  | case1 => rfl
  | case2 valid rest hrest =>
    rw [List.isEmpty_iff.1 hrest]
    rfl
  | case3 valid rest hrest ih =>
    have := escape_le rest
    have := ih h
    simp only [width_literalBody_after, List.length_drop, List.length_cons] at this ⊢
    omega
  | case4 => exact absurd rfl h
  | case5 valid c rest hescape hquote ih =>
    have := ih h
    simp only [width_literalBody_after, List.length_cons]
    omega

/-- What is malformed so far stays so. -/
theorem literalBody_valid (h : valid = false) (text : Text) :
    (literalBody quote valid text).valid = false := by
  fun_induction literalBody quote valid text with
  | case1 => exact h
  | case2 => exact h
  | case3 valid rest hrest ih => exact ih (by rw [h, Bool.false_and])
  | case4 => exact h
  | case5 valid c rest hescape hquote ih => exact ih h

/-- The body of a closed literal holds its quote. -/
theorem quote_mem_literalBody (h : (literalBody quote valid text).ending = .closed) :
    quote.char ∈ text.take (literalBody quote valid text).width := by
  fun_induction literalBody quote valid text with
  | case1 => cases h
  | case2 => cases h
  | case3 valid rest hrest ih =>
    rw [width_literalBody_after, Nat.add_assoc, Nat.add_comm, List.take_succ_cons, List.take_add]
    exact List.mem_cons_of_mem _ (List.mem_append_right _ (ih h))
  | case4 valid rest => simp
  | case5 valid c rest hescape hquote ih =>
    rw [width_literalBody_after, Nat.add_comm, List.take_succ_cons]
    exact List.mem_cons_of_mem c (ih h)

/-- A literal that is closed is the same, and any other goes on behind the break, valid or not as it
is by then. -/
theorem literalBody_join (quote : Quote) (valid : Bool) (text next : Text) :
    literalBody quote valid (text ++ '\n' :: next) =
      if (literalBody quote valid text).ending = .closed then literalBody quote valid text
      else (literalBody quote (literalBody quote valid text).valid next).after
        (text.length + 1) := by
  -- The induction follows the body, for any validity, since malformed escapes change it on the way.
  fun_induction literalBody quote valid text with
  | case1 valid => exact literalBody_break
  | case2 valid rest hrest =>
    -- The backslash ends the line, which leaves the literal open, and in the joined text it escapes
    -- the break.
    rw [List.isEmpty_iff.1 hrest, List.cons_append, List.nil_append,
      literalBody_escape (List.cons_ne_nil _ _), escape_break]
    simp
  | case3 valid rest hrest ih =>
    -- The escape ends within the line, if need be as a malformed one.
    have hne : rest ≠ [] := by simpa using hrest
    have hle := escape_le rest
    rw [List.cons_append, literalBody_escape (by simp), escape_join hne, drop_join hle, ih]
    split
    next h => rw [if_pos (by exact h)]
    next h =>
      rw [if_neg (by exact h), literalBody_after_after]
      congr 1
      simp only [List.length_drop, List.length_cons]
      omega
  | case4 valid rest hescape =>
    rw [if_pos rfl, List.cons_append, literalBody, if_neg hescape, if_pos rfl]
  | case5 valid c rest hescape hquote ih =>
    rw [List.cons_append, literalBody_char hescape hquote, ih]
    split
    next h => rw [if_pos (by exact h)]
    next h =>
      rw [if_neg (by exact h), literalBody_after_after, List.length_cons]
      congr 1
      omega

end

/-! ## Templates -/

section

variable (lead : Nat) (body : TemplateBody)

@[simp] theorem width_templateBody_after : (body.after lead).width = lead + body.width := rfl

@[simp] theorem valid_templateBody_after : (body.after lead).valid = body.valid := rfl

@[simp] theorem ending_templateBody_after : (body.after lead).ending = body.ending := rfl

@[simp] theorem templateBody_after_after (more : Nat) :
    (body.after lead).after more = body.after (more + lead) := by
  simp [TemplateBody.after, Nat.add_assoc]

end

section

variable {valid : Bool}

/-- A backslash takes an escape. -/
theorem templateBody_escape :
    templateBody valid ('\\' :: text) =
      (templateBody (valid && (escape text).2) (text.drop (escape text).1)).after
        (1 + (escape text).1) := by
  rw [templateBody, if_neg (by decide), if_pos rfl]

/-- A line break is taken as it is. -/
theorem templateBody_break :
    templateBody valid ('\n' :: next) = (templateBody valid next).after 1 := by
  rw [templateBody, if_neg (by decide), if_neg (by decide), if_neg (by simp)]

/-- Template text lies in the text. -/
theorem templateBody_width_le (valid : Bool) (text : Text) :
    (templateBody valid text).width ≤ text.length := by
  fun_induction templateBody valid text with
  | case1 => exact Nat.le_refl 0
  | case2 => simp
  | case3 valid rest hclose ih =>
    have := escape_le rest
    simp only [width_templateBody_after, List.length_drop, List.length_cons] at ih ⊢
    omega
  | case4 => simp
  | case5 valid c rest hclose hescape hopen ih =>
    simp only [width_templateBody_after, List.length_cons]
    omega

/-- Template text that nothing ends takes all of the text. -/
theorem templateBody_width_eq (h : (templateBody valid text).ending = .unclosed) :
    (templateBody valid text).width = text.length := by
  fun_induction templateBody valid text with
  | case1 => rfl
  | case2 => cases h
  | case3 valid rest hclose ih =>
    have := escape_le rest
    have := ih h
    simp only [width_templateBody_after, List.length_drop, List.length_cons] at this ⊢
    omega
  | case4 => cases h
  | case5 valid c rest hclose hescape hopen ih =>
    have := ih h
    simp only [width_templateBody_after, List.length_cons]
    omega

/-- What is malformed so far stays so. -/
theorem templateBody_valid (h : valid = false) (text : Text) :
    (templateBody valid text).valid = false := by
  fun_induction templateBody valid text with
  | case1 => exact h
  | case2 => exact h
  | case3 valid rest hclose ih => exact ih (by rw [h, Bool.false_and])
  | case4 => exact h
  | case5 valid c rest hclose hescape hopen ih => exact ih h

/-- Template text that is closed holds its backquote. -/
theorem backquote_mem_templateBody (h : (templateBody valid text).ending = .closed) :
    '`' ∈ text.take (templateBody valid text).width := by
  fun_induction templateBody valid text with
  | case1 => cases h
  | case2 => simp
  | case3 valid rest hclose ih =>
    rw [width_templateBody_after, Nat.add_assoc, Nat.add_comm, List.take_succ_cons, List.take_add]
    exact List.mem_cons_of_mem _ (List.mem_append_right _ (ih h))
  | case4 => cases h
  | case5 valid c rest hclose hescape hopen ih =>
    rw [width_templateBody_after, Nat.add_comm, List.take_succ_cons]
    exact List.mem_cons_of_mem c (ih h)

/-- Template text that nothing ends goes on behind the break, valid or not as it is by then, and any
other is the same. -/
theorem templateBody_join (valid : Bool) (text next : Text) :
    templateBody valid (text ++ '\n' :: next) =
      if (templateBody valid text).ending = .unclosed then
        (templateBody (templateBody valid text).valid next).after (text.length + 1)
      else templateBody valid text := by
  fun_induction templateBody valid text with
  | case1 valid => exact templateBody_break
  | case2 valid rest => rw [if_neg (by simp), List.cons_append, templateBody, if_pos rfl]
  | case3 valid rest hclose ih =>
    rw [List.cons_append, templateBody_escape]
    by_cases hrest : rest = []
    · -- The backslash escapes the break.
      rw [hrest, List.nil_append, escape_break]
      simp [escape, templateBody]
    · have hle := escape_le rest
      rw [escape_join hrest, drop_join hle, ih]
      split
      next h =>
        rw [if_pos (by exact h), templateBody_after_after]
        congr 1
        simp only [List.length_drop, List.length_cons]
        omega
      next h => rw [if_neg (by exact h)]
  | case4 valid c rest hclose hescape hopen =>
    rw [if_neg (by simp), List.cons_append, templateBody, if_neg hclose, if_neg hescape]
    simp only [head?_join_eq_some (show '{' ≠ '\n' by decide), if_pos hopen]
  | case5 valid c rest hclose hescape hopen ih =>
    rw [List.cons_append, templateBody, if_neg hclose, if_neg hescape]
    simp only [head?_join_eq_some (show '{' ≠ '\n' by decide), if_neg hopen, ih]
    split
    next h =>
      rw [if_pos (by exact h), templateBody_after_after, List.length_cons]
      congr 1
      omega
    next h => rw [if_neg (by exact h)]

end

/-! ## Interpolations -/

section

variable (lead : Nat) (body : InterpolationBody)

@[simp] theorem width_interpolationBody_after : (body.after lead).width = lead + body.width := rfl

@[simp] theorem openBraces_interpolationBody_after :
    (body.after lead).openBraces = body.openBraces := rfl

@[simp] theorem interpolationBody_after_after (more : Nat) :
    (body.after lead).after more = body.after (more + lead) := by
  simp [InterpolationBody.after, Nat.add_assoc]

end

section

variable {depth : Depth}

/-- A line break leaves the braces that are open. -/
theorem interpolationBody_break :
    interpolationBody depth ('\n' :: next) = (interpolationBody depth next).after 1 := by
  rw [interpolationBody, if_neg (by decide), if_neg (by decide)]

/-- An interpolation lies in the text. -/
theorem interpolationBody_width_le (depth : Depth) (text : Text) :
    (interpolationBody depth text).width ≤ text.length := by
  fun_induction interpolationBody depth text with
  | case1 => exact Nat.le_refl 0
  | case2 depth rest ih =>
    simp only [width_interpolationBody_after, List.length_cons]
    omega
  | case3 => simp
  | case4 depth rest hdepth hopen ih =>
    simp only [width_interpolationBody_after, List.length_cons]
    omega
  | case5 depth c rest hopen hclose ih =>
    simp only [width_interpolationBody_after, List.length_cons]
    omega

/-- An interpolation that stays open takes all of the text. -/
theorem interpolationBody_width_eq {left : Depth}
    (h : (interpolationBody depth text).openBraces = some left) :
    (interpolationBody depth text).width = text.length := by
  fun_induction interpolationBody depth text with
  | case1 => rfl
  | case2 depth rest ih =>
    have := ih h
    simp only [width_interpolationBody_after, List.length_cons]
    omega
  | case3 => cases h
  | case4 depth rest hdepth hopen ih =>
    have := ih h
    simp only [width_interpolationBody_after, List.length_cons]
    omega
  | case5 depth c rest hopen hclose ih =>
    have := ih h
    simp only [width_interpolationBody_after, List.length_cons]
    omega

/-- An interpolation that closes is the same, and any other goes on behind the break with the braces
that it has left open. -/
theorem interpolationBody_join (depth : Depth) (text next : Text) :
    interpolationBody depth (text ++ '\n' :: next) =
      match (interpolationBody depth text).openBraces with
      | none => interpolationBody depth text
      | some left => (interpolationBody left next).after (text.length + 1) := by
  fun_induction interpolationBody depth text with
  | case1 depth => exact interpolationBody_break
  | case2 depth rest ih =>
    rw [List.cons_append, interpolationBody, if_pos rfl, ih, openBraces_interpolationBody_after]
    split
    · rfl
    · rw [interpolationBody_after_after, List.length_cons, Nat.add_comm 1]
  | case3 depth rest hdepth hopen =>
    rw [List.cons_append, interpolationBody, if_neg (by decide), if_pos rfl, if_pos hdepth]
  | case4 depth rest hdepth hopen ih =>
    rw [List.cons_append, interpolationBody, if_neg (by decide), if_pos rfl, if_neg hdepth, ih,
      openBraces_interpolationBody_after]
    split
    · rfl
    · rw [interpolationBody_after_after, List.length_cons, Nat.add_comm 1]
  | case5 depth c rest hopen hclose ih =>
    rw [List.cons_append, interpolationBody, if_neg hopen, if_neg hclose, ih,
      openBraces_interpolationBody_after]
    split
    · rfl
    · rw [interpolationBody_after_after, List.length_cons, Nat.add_comm 1]

end

/-! ## Moves -/

/-- The kind of what a state has open, as far as the line before tells. -/
def openKind : ScriptState → Kind
  | .code => .whitespace
  | .comment => .commentMultiline
  | .literal quote valid => if valid then literalKind quote else literalErrorKind quote
  | .template valid => templateKind valid
  | .interpolation _ => .variableName

/-- What is taken of a text in a state, after `lead` characters of what the state has open. In code
these are blanks. -/
def resume (lead : Nat) (text : Text) : ScriptState → Move
  | .code => one .whitespace (lead + runLength isBlank text) .code
  | .comment => comment lead text
  | .literal quote valid => literal quote valid lead text
  | .template valid => template valid lead text
  | .interpolation depth =>
    let body := interpolationBody depth text
    one .variableName (lead + body.width) (afterInterpolation body.openBraces)

/-- Where nothing is open but code, a state moves as it resumes. -/
theorem move_eq_resume {state : ScriptState} (h : state ≠ .code) (regexAllowed : Bool) (c : Char)
    (rest : Text) : move regexAllowed state c rest = resume 0 (c :: rest) state := by
  cases state with
  | code => exact absurd rfl h
  | comment => rfl
  | literal quote valid => rfl
  | template valid => rfl
  | interpolation depth => simp only [move, interpolation, resume, Nat.zero_add]

/-- A line break belongs to what a state has open. -/
theorem move_break (regexAllowed : Bool) (state : ScriptState) :
    move regexAllowed state '\n' next = resume 1 next state := by
  cases state with
  | code => simp [move, code, resume, isBlank, Nat.add_comm]
  | comment =>
    have hover : GoesOver (commentWidth? scriptTag) next :=
      goesOver_commentWidth? (by decide) next
    simp only [move, comment, resume, hover.cons]
    cases commentWidth? scriptTag next <;> simp [Nat.add_comm]
  | literal quote valid =>
    simp only [move, literal, resume, literalBody_break, width_literalBody_after,
      valid_literalBody_after, ending_literalBody_after, Nat.zero_add]
  | template valid =>
    have hdrop : ('\n' :: next).drop (1 + (templateBody valid next).width + 2) =
        next.drop ((templateBody valid next).width + 2) := by
      rw [Nat.add_assoc, Nat.add_comm 1, List.drop_succ_cons]
    simp only [move, template, resume, templateBody_break, width_templateBody_after,
      valid_templateBody_after, ending_templateBody_after, Nat.zero_add, hdrop]
  | interpolation depth => simp [move, interpolation, resume, interpolationBody_break]

/-- What is taken in a state starts with a piece of the kind that it has open, or of the error that
this turns out to be, and that piece takes the characters before the text. -/
theorem exists_resume (state : ScriptState) (text : Text) :
    ∃ kind width back after, (kind = openKind state ∨ (openKind state).errorKind? = some kind) ∧
      ∀ lead, resume lead text state = ⟨piece kind (lead + width) :: back, .script after⟩ := by
  cases state with
  | code => exact ⟨_, _, [], _, .inl rfl, fun lead => rfl⟩
  | comment =>
    simp only [resume, comment]
    split
    · exact ⟨_, _, [], _, .inl rfl, fun lead => rfl⟩
    · exact ⟨_, _, [], _, .inl rfl, fun lead => rfl⟩
  | literal quote valid =>
    refine ⟨_, _, [], _, ?_, fun lead => rfl⟩
    cases valid with
    | false =>
      rw [literalBody_valid rfl, Bool.false_and]
      exact .inl rfl
    | true =>
      split
      · exact .inl rfl
      · exact .inr (by cases quote <;> rfl)
  | template valid =>
    have hkind : templateKind (templateBody valid text).valid = openKind (.template valid) ∨
        (openKind (.template valid)).errorKind? =
          some (templateKind (templateBody valid text).valid) := by
      cases valid with
      | false => exact .inl (by rw [templateBody_valid rfl, openKind])
      | true =>
        cases (templateBody true text).valid with
        | true => exact .inl rfl
        | false => exact .inr rfl
    simp only [resume, template]
    split
    · exact ⟨_, _, [], _, hkind, fun lead => rfl⟩
    · exact ⟨_, _, [], _, hkind, fun lead => rfl⟩
    · exact ⟨_, _, [_], _, hkind, fun lead => rfl⟩
  | interpolation depth => exact ⟨_, _, [], _, .inl rfl, fun lead => rfl⟩

/-- What a move from the head of a text becomes where the text is joined with another line: it is
the same, it leaves a literal at the end of the text in error, or its last piece takes in the line
break and what is taken of the line behind it in the state that the move leads to. -/
inductive Resumes (next text : Text) (move joined : Move) : Prop
  | same (hmove : joined = move) (hwidth : move.width ≤ text.length)
  | ends (hnext : move.next = .script .code) (hwidth : move.width = text.length)
  | goesOn {front : List Piece} {width : Nat} {stay : ScriptState} (hstay : stay ≠ .code)
      (hmove : move = ⟨front ++ [piece (openKind stay) width], .script stay⟩)
      (hwidth : totalWidth front + width = text.length)
      (hjoined : joined = ⟨front ++ (resume (width + 1) next stay).pieces,
        (resume (width + 1) next stay).next⟩)

/-- A move of one piece that takes all of the text and goes on in what it has open. -/
theorem Resumes.whole {move joined : Move} (stay : ScriptState) (hstay : stay ≠ .code)
    (hmove : move = one (openKind stay) text.length stay)
    (hjoined : joined = resume (text.length + 1) next stay) : Resumes next text move joined :=
  .goesOn hstay (show move = ⟨[] ++ [_], _⟩ from hmove) (Nat.zero_add _) hjoined

section

variable {lead : Nat} {body : Text} (h : text.length = lead + body.length)

include h

/-- A comment goes on behind the break. -/
theorem resumes_comment :
    Resumes next text (comment lead body) (comment lead (body ++ '\n' :: next)) := by
  have hover : GoesOver (commentWidth? scriptTag) next := goesOver_commentWidth? (by decide) next
  cases hbody : commentWidth? scriptTag body with
  | some width =>
    have := hover.le hbody
    refine .same ?_ ?_
    · simp only [comment, hover.join, hbody, Option.some_or]
    · simp only [comment, hbody, width_one]
      omega
  | none =>
    refine .whole .comment (by simp) (by simp only [comment, hbody, h, openKind]) ?_
    simp only [comment, hover.join, hbody, Option.none_or, resume]
    cases commentWidth? scriptTag next with
    | some width =>
      have hwidth : lead + (width + (body.length + 1)) = text.length + 1 + width := by omega
      simp only [Option.map_some, hwidth]
    | none =>
      have hwidth : lead + (body ++ '\n' :: next).length = text.length + 1 + next.length := by
        rw [List.length_append, List.length_cons]
        omega
      simp only [Option.map_none, hwidth]

/-- A literal goes on behind the break, or it ends in error there. -/
theorem resumes_literal (quote : Quote) (valid : Bool) :
    Resumes next text (literal quote valid lead body)
      (literal quote valid lead (body ++ '\n' :: next)) := by
  have hle := literalBody_width_le quote valid body
  have hjoin := literalBody_join quote valid body next
  -- The three endings are the three ways in which a move resumes.
  cases hending : (literalBody quote valid body).ending with
  | closed =>
    rw [if_pos hending] at hjoin
    refine .same (by rw [literal, hjoin, literal]) ?_
    simp only [literal, width_one]
    omega
  | unterminated =>
    have := literalBody_width_eq (by rw [hending]; decide)
    refine .ends ?_ ?_
    · simp [literal, hending, one]
    · simp only [literal, width_one]
      omega
  | continued =>
    have hwidth := literalBody_width_eq (by rw [hending]; decide)
    rw [if_neg (by rw [hending]; decide)] at hjoin
    refine .whole (.literal quote (literalBody quote valid body).valid) (by simp) ?_ ?_
    · simp [literal, hending, hwidth, h, openKind]
    · have hlead : ∀ width, lead + (body.length + 1 + width) = text.length + 1 + width := by
        omega
      simp only [literal, hjoin, resume, width_literalBody_after, valid_literalBody_after,
        ending_literalBody_after, hlead]

/-- Template text goes on behind the break, and so does the interpolation that ends it. -/
theorem resumes_template (valid : Bool) :
    Resumes next text (template valid lead body)
      (template valid lead (body ++ '\n' :: next)) := by
  have hle := templateBody_width_le valid body
  have hjoin := templateBody_join valid body next
  cases hending : (templateBody valid body).ending with
  | closed =>
    rw [if_neg (by rw [hending]; decide)] at hjoin
    refine .same (by simp only [template, hjoin, hending]) ?_
    simp only [template, hending, width_one]
    omega
  | unclosed =>
    have hwidth := templateBody_width_eq hending
    rw [if_pos hending] at hjoin
    refine .whole (.template (templateBody valid body).valid) (by simp) ?_ ?_
    · simp only [template, hending, hwidth, h, openKind]
    · have hlead : ∀ width, lead + (body.length + 1 + width) = text.length + 1 + width := by
        omega
      have hdrop : ∀ width, (body ++ '\n' :: next).drop (body.length + 1 + width + 2) =
          next.drop (width + 2) := by
        intro width
        rw [Nat.add_assoc, Nat.add_assoc, List.drop_length_add_append, Nat.add_comm 1,
          List.drop_succ_cons]
      simp only [template, hjoin, resume, width_templateBody_after, valid_templateBody_after,
        ending_templateBody_after, hlead, hdrop]
  | interpolated =>
    rw [if_neg (by rw [hending]; decide)] at hjoin
    -- The interpolation starts in the text, so it is the interpolation that may go on.
    have hopening := (prefix_drop_of_interpolated hending).length_le
    rw [List.length_drop] at hopening
    have hinner : (templateBody valid body).width + 2 ≤ body.length := by
      simp only [List.length_cons, List.length_nil] at hopening
      omega
    have hinnerLe := interpolationBody_width_le .one
      (body.drop ((templateBody valid body).width + 2))
    have hinnerJoin := interpolationBody_join .one
      (body.drop ((templateBody valid body).width + 2)) next
    rw [← drop_join hinner] at hinnerJoin
    rw [List.length_drop] at hinnerLe
    cases hopen : (interpolationBody .one
        (body.drop ((templateBody valid body).width + 2))).openBraces with
    | none =>
      rw [hopen] at hinnerJoin
      refine .same (by simp only [template, hjoin, hending, hinnerJoin]) ?_
      simp only [template, hending, Move.width_pair, piece]
      omega
    | some left =>
      have hinnerWidth := interpolationBody_width_eq hopen
      rw [hopen] at hinnerJoin
      rw [List.length_drop] at hinnerWidth
      have hmove : template valid lead body =
          ⟨[piece (templateKind (templateBody valid body).valid)
              (lead + (templateBody valid body).width)] ++
            [piece (openKind (.interpolation left))
              (2 + (body.length - ((templateBody valid body).width + 2)))],
            .script (.interpolation left)⟩ := by
        simp only [template, hending, hopen, hinnerWidth, openKind, afterInterpolation]
        rfl
      refine .goesOn (by simp) hmove ?_ ?_
      · simp only [totalWidth, piece]
        omega
      · simp only [template, hjoin, hending, hinnerJoin, resume, one, List.length_drop,
          width_interpolationBody_after, openBraces_interpolationBody_after, Nat.add_assoc]
        rfl

end

/-- An interpolation goes on behind the break. -/
theorem resumes_interpolation (depth : Depth) :
    Resumes next text (interpolation depth text) (interpolation depth (text ++ '\n' :: next)) := by
  have hle := interpolationBody_width_le depth text
  have hjoin := interpolationBody_join depth text next
  cases hopen : (interpolationBody depth text).openBraces with
  | none =>
    rw [hopen] at hjoin
    refine .same (by simp only [interpolation, hjoin]) ?_
    simp only [interpolation, width_one]
    omega
  | some left =>
    have hwidth := interpolationBody_width_eq hopen
    rw [hopen] at hjoin
    refine .whole (.interpolation left) (by simp) ?_ ?_
    · simp only [interpolation, hopen, hwidth, openKind, afterInterpolation]
    · simp only [interpolation, hjoin, resume, width_interpolationBody_after,
        openBraces_interpolationBody_after]

/-- A move in code opens a construct, or it starts with a piece that does not belong to one. -/
theorem code_cases (regexAllowed : Bool) (c : Char) (rest : Text) :
    (c = '/' ∧ ∃ body, rest = '*' :: body) ∨ c = '`' ∨ (∃ quote : Quote, c = quote.char) ∨
      ∃ first more, (code regexAllowed c rest).pieces = first :: more ∧ 0 < first.width ∧
        first.kind.isConstruct = false := by
  have hone : ∀ {kind width next}, 0 < width → kind.isConstruct = false →
      ∃ first more, (one kind width next).pieces = first :: more ∧ 0 < first.width ∧
        first.kind.isConstruct = false :=
    fun hwidth hkind => ⟨_, [], rfl, hwidth, hkind⟩
  -- Rule by rule, in the order in which they are tried.
  unfold code
  split
  · exact .inr (.inr (.inr (hone (Nat.succ_pos _) (by decide))))
  split
  · exact .inr (.inr (.inr ⟨_, _, rfl, Nat.two_pos, by decide⟩))
  split
  next hslash =>
    unfold slash
    split
    next =>
      refine .inr (.inr (.inr (hone ?_ (by decide))))
      have := lineComment_width_pos '/' rest (by decide)
      rwa [lineComment, width_one] at this
    split
    next hstar =>
      obtain ⟨body, rfl⟩ := List.head?_eq_some_iff.1 hstar
      exact .inl ⟨hslash, body, rfl⟩
    split
    next =>
      split
      next width hwidth =>
        exact .inr (.inr (.inr (hone (regexWidth?_pos hwidth) (by decide))))
      next => exact .inr (.inr (.inr (hone (operatorWidth_pos _) (by decide))))
    next => exact .inr (.inr (.inr (hone (operatorWidth_pos _) (by decide))))
  split
  next hbackquote => exact .inr (.inl hbackquote)
  split
  next quote hquote => exact .inr (.inr (.inl ⟨quote, Quote.eq_of_ofChar? hquote⟩))
  refine .inr (.inr (.inr ?_))
  unfold plainCode
  split
  next hnumber =>
    have hkinds : ∀ kind ∈ [Kind.literalDecimalInt, .literalHexInt, .literalFloat, .errorNumber],
        kind.isConstruct = false := by decide
    obtain ⟨kind, width, hkind, hmove⟩ := exists_number_eq c rest
    have hwidth := number_width_pos hnumber
    rw [hmove, width_one] at hwidth
    rw [hmove]
    exact hone hwidth (hkinds kind hkind)
  split
  · exact hone Nat.one_pos (by decide)
  split
  · exact hone Nat.one_pos (by decide)
  split
  next =>
    have hkinds : ∀ kind ∈ [Kind.identifier, .reservedWord, .reservedWord2, .dataType,
        .literalBoolean, .functionName], kind.isConstruct = false := by decide
    exact hone (Nat.succ_pos _) (hkinds _ (Kind.ofWord_mem _))
  split
  · exact hone (operatorWidth_pos _) (by decide)
  · exact hone Nat.one_pos (by decide)

/-- Where a construct is open or opens, a move goes on behind the break. -/
theorem resumes_move (regexAllowed : Bool) (state : ScriptState) (c : Char) (rest next : Text) :
    Resumes next (c :: rest) (move regexAllowed state c rest)
        (move regexAllowed state c (rest ++ '\n' :: next)) ∨
      ∃ first more, (move regexAllowed state c rest).pieces = first :: more ∧ 0 < first.width ∧
        first.kind.isConstruct = false := by
  -- The four states of constructs are at the head of their body. In code, the body of a construct
  -- starts behind what opens it, and whatever else comes first belongs to no construct.
  cases state with
  | comment => exact .inl (resumes_comment (by simp))
  | literal quote valid => exact .inl (resumes_literal (by simp) quote valid)
  | template valid => exact .inl (resumes_template (by simp) valid)
  | interpolation depth => exact .inl (resumes_interpolation depth)
  | code =>
    rcases code_cases regexAllowed c rest with ⟨rfl, body, rfl⟩ | rfl | ⟨quote, rfl⟩ | hpiece
    · have hmove : ∀ body, move regexAllowed .code '/' ('*' :: body) = comment 2 body := by
        intro body
        simp [move, code, slash, isBlank]
      rw [List.cons_append, hmove, hmove]
      exact .inl (resumes_comment (by simp; omega))
    · have hmove : ∀ rest, move regexAllowed .code '`' rest = template true 1 rest := by
        intro rest
        simp [move, code, isBlank]
      rw [hmove, hmove]
      exact .inl (resumes_template (by simp; omega) true)
    · have hmove : ∀ rest, move regexAllowed .code quote.char rest = literal quote true 1 rest := by
        intro rest
        cases quote <;> simp [move, code, isBlank, Quote.char, Quote.ofChar?]
      rw [hmove, hmove]
      exact .inl (resumes_literal (by simp; omega) quote true)
    · exact .inr hpiece

end

end Script

end LineLexer
