import LineLexer.Proofs.Literal.Pattern
import LineLexer.Proofs.Number.Grammar
import LineLexer.Proofs.Scan.ScriptBlock
import LineLexer.Proofs.Token.Reach

/-!
# Slashes in scripts

A slash in the code of a script that opens no comment starts a regular expression or is an operator,
and which of the two is a matter of the line alone. The scan decides by the last code that it
recalls; that is the last token of code before the slash (`Reaches.regexMayFollow_iff`), so blanks
and comments between the two do not count. The pattern must be closed on the line, where the first
closing slash ends it (`closingSlashes`). If it is not, nothing of the search shows: the slash is an
operator and the text behind it is lexed as ever (`slash_exact`).
-/

namespace LineLexer

/-! ## The token before a slash -/

/-- The tokens of code that stop at an offset or before it. -/
def Lexed.codeBefore (lexed : Lexed) (offset : Nat) : List Token :=
  lexed.tokens.filter fun token => token.isCode && decide (token.stop ≤ offset)

/-- Tokens that a regular expression may follow: keywords, operators that end in an equals sign or a
tilde, and some single characters. -/
def Token.MayPrecedeRegex (token : Token) : Prop :=
  token.kind = .reservedWord ∨ token.kind = .reservedWord2 ∨
    (token.kind = .operator ∧ (['='] <:+ token.text ∨ ['~'] <:+ token.text)) ∨
    ∃ c ∈ "=(,?:[!&|;{}".toList, token.text = [c]

/-- A text that ends in a character has it last. -/
theorem singleton_suffix_iff {c : Char} {text : Text} :
    [c] <:+ text ↔ text.getLast? = some c := by
  rw [List.getLast?_eq_some_iff]
  exact ⟨fun ⟨front, h⟩ => ⟨front, h.symm⟩, fun ⟨front, h⟩ => ⟨front, h.symm⟩⟩

/-- The check of the code before a slash passes the tokens that a regular expression may follow. -/
theorem regexMayFollow_iff (token : Token) :
    Script.regexMayFollow (some (token.kind, token.text)) = true ↔ token.MayPrecedeRegex := by
  have hsingle : (token.text.length == 1 &&
      token.text.all fun c => "=(,?:[!&|;{}".toList.contains c) = true ↔
        ∃ c ∈ "=(,?:[!&|;{}".toList, token.text = [c] := by
    constructor
    · intro h
      obtain ⟨hlength, hall⟩ := Bool.and_eq_true_iff.1 h
      obtain ⟨c, hc⟩ := List.length_eq_one_iff.1 (beq_iff_eq.1 hlength)
      rw [hc, List.all_cons, List.all_nil, Bool.and_true, List.contains_iff_mem] at hall
      exact ⟨c, hall, hc⟩
    · rintro ⟨c, hc, htext⟩
      rw [htext, List.all_cons, List.all_nil, Bool.and_true, List.contains_iff_mem.2 hc]
      rfl
  simp only [Script.regexMayFollow, Bool.or_eq_true, hsingle, Token.MayPrecedeRegex,
    Bool.and_eq_true, beq_iff_eq, singleton_suffix_iff, or_assoc]

instance : DecidablePred Token.MayPrecedeRegex :=
  fun token => decidable_of_iff _ (regexMayFollow_iff token)

section

variable {start : ResumeState} {line text : Text} {here : ResumeState} {spans : List Span}

/-- The tokens of code before a place that a scan comes to are those of the spans cut off. -/
theorem Reaches.codeBefore_eq (h : Reaches .start start line spans here text) (base : Nat) :
    (tokenize .off line base start).codeBefore (base + byteLength (spelled spans)) =
      (placeFrom base spans).filter Token.isCode := by
  obtain ⟨more, hmore⟩ := h.exists_spans_eq
  have hfront : ∀ token ∈ placeFrom base spans,
      (token.isCode && decide (token.stop ≤ base + byteLength (spelled spans))) =
        token.isCode := by
    intro token htoken
    rw [decide_eq_true (bounds_of_mem_placeFrom htoken).2, Bool.and_true]
  -- A token behind the place has a text, so it stops behind the place as well.
  have hback : ∀ token ∈ placeFrom (base + byteLength (spelled spans)) more,
      ¬(token.isCode && decide (token.stop ≤ base + byteLength (spelled spans))) = true := by
    intro token htoken hcode
    have hlt := lt_stop_of_mem_placeFrom htoken fun span hspan =>
      text_ne_nil_of_mem_scan (hmore ▸ List.mem_append_right _ hspan)
    have hle := (bounds_of_mem_placeFrom htoken).1
    have hstop := of_decide_eq_true (Bool.and_eq_true_iff.1 hcode).2
    omega
  rw [tokenize_off, hmore, Lexed.codeBefore, placeFrom_append, List.filter_append,
    List.filter_congr hfront, List.filter_eq_nil_iff.2 hback, List.append_nil]

/-- What a scan recalls lets a regular expression follow just if the last token of code before it
does. -/
theorem Reaches.regexMayFollow_iff (h : Reaches .start start line spans here text) (base : Nat) :
    Script.regexMayFollow (spans.foldl Recall.note .start).script = true ↔
      ∀ prev ∈ ((tokenize .off line base start).codeBefore
        (base + byteLength (spelled spans))).getLast?, prev.MayPrecedeRegex := by
  have hlast : (spans.filter Span.isCode).getLast? =
      ((placeFrom base spans).filter Token.isCode).getLast?.map Token.span := by
    calc (spans.filter Span.isCode).getLast?
        = (((placeFrom base spans).map Token.span).filter Span.isCode).getLast? := by
          rw [map_span_placeFrom]
      _ = ((placeFrom base spans).filter Token.isCode).getLast?.map Token.span := by
          rw [List.filter_map, List.getLast?_map]
          rfl
  rw [h.codeBefore_eq, Recall.script_foldl_note, hlast]
  cases ((placeFrom base spans).filter Token.isCode).getLast? with
  | none => simp [Recall.start, Script.regexMayFollow]
  | some prev =>
    have hprev : (Option.map (fun span => (span.kind, span.text)) (Option.map Token.span
        (some prev))).or Recall.start.script = some (prev.kind, prev.text) := rfl
    rw [hprev, LineLexer.regexMayFollow_iff]
    simp

end

/-! ## The move at a slash -/

namespace Script

/-- The operator that a slash is. -/
def slashOperator (rest : Text) : Text :=
  if rest.head? = some '=' then ['/', '='] else ['/']

/-- Of the operators with more than one character, a slash starts one with an equals sign only. -/
theorem operatorWidth_slash {rest : Text} (h : rest.head? ≠ some '/') :
    operatorWidth ('/' :: rest) = (slashOperator rest).length := by
  cases rest with
  | nil => decide
  | cons c rest =>
    by_cases hequals : c = '='
    · subst hequals
      rfl
    · have hother : ('=' == c) = false := beq_eq_false_iff_ne.2 (Ne.symm hequals)
      simp [operatorWidth, operators, List.isPrefixOf, slashOperator, hequals, hother]

/-- A slash that is an operator is the first character of it. -/
theorem slashOperator_append (rest : Text) :
    '/' :: rest = slashOperator rest ++ ('/' :: rest).drop (slashOperator rest).length := by
  unfold slashOperator
  split
  next hequals =>
    obtain ⟨tail, rfl⟩ := List.head?_eq_some_iff.1 hequals
    rfl
  next => rfl

/-- A pattern that is not closed on the line is no regular expression. -/
theorem regexWidth?_eq_none {rest : Text} (h : closingSlashes rest = ∅) :
    regexWidth? rest = none := by
  rw [regexWidth?, (isThroughFirst_patternWidth? rest).eq_none h]
  rfl

section

variable {rest : Text} (hline : rest.head? ≠ some '/') (hblock : rest.head? ≠ some '*')

include hline hblock

/-- Where a regular expression may start and is closed on the line, it is taken. -/
theorem slash_of_regexWidth? {width : Nat} (h : regexWidth? rest = some width) :
    slash true rest = one .regex width .code := by
  simp only [slash, if_neg hline, if_neg hblock, if_true, h]

/-- Where none may start or none is closed, an operator is taken. -/
theorem slash_of_not {allowed : Bool} (h : allowed = true → regexWidth? rest = none) :
    slash allowed rest = one .operator (slashOperator rest).length .code := by
  have hoperator : operator ('/' :: rest) = one .operator (slashOperator rest).length .code := by
    rw [operator, operatorWidth_slash hline]
  rw [slash, if_neg hline, if_neg hblock, hoperator]
  split
  next hallowed => rw [h hallowed]
  next => rfl

end

section

variable {start : ResumeState} {line rest : Text} {spans : List Span}

/-- The next token of a line is one of the code of a script, and the scan goes on in code behind
it. -/
structure TakesCode (line : Text) (start : ResumeState) (base : Nat) (spans : List Span)
    (kind : Kind) (text left : Text) : Prop where
  mem : ⟨kind, .script, base + byteLength (spelled spans), text, .empty⟩ ∈
    (tokenize .off line base start).tokens
  reaches : Reaches .start start line (spans ++ [⟨kind, .script, text, .empty⟩]) (.script .code)
    left

/-- A scan whose move takes one piece of code takes its token. -/
theorem takesCode_of_step {c : Char} {kind : Kind} {width : Nat}
    (h : Reaches .start start line spans (.script .code) (c :: rest)) (hwidth : 0 < width)
    (hstep : step (spans.foldl Recall.note .start) (.script .code) c rest = one kind width .code)
    (base : Nat) :
    TakesCode line start base spans kind ((c :: rest).take width) ((c :: rest).drop width) := by
  have hreaches := h.piece hwidth hstep
  have hscope : LinkScope.off.appliesTo kind = false := rfl
  exact ⟨hreaches.place_mem_tokenize hscope base, hreaches⟩

/-- No two kinds of token are taken at one place. -/
theorem TakesCode.kind_unique {base : Nat} {kind : Kind} {text left : Text}
    (h : TakesCode line start base spans kind text left) {token : Token}
    (htoken : token ∈ (tokenize .off line base start).tokens)
    (hoffset : token.offset = base + byteLength (spelled spans)) : token.kind = kind := by
  have hmem := h.mem
  rw [tokenize_off] at htoken hmem
  have hcovers : ∀ {other : Token}, other ∈ placeFrom base (scan .start start line).spans →
      other.Covers other.offset := fun hother =>
    ⟨Nat.le_refl _, lt_stop_of_mem_placeFrom hother fun _ => text_ne_nil_of_mem_scan⟩
  have hcoversToken := hcovers htoken
  rw [hoffset] at hcoversToken
  exact congrArg Token.kind (eq_of_covers htoken hmem hcoversToken (hcovers hmem))

/-- Where a regular expression may start, a slash takes its pattern through the first closing slash
and the letters behind that. -/
theorem exists_takesCode_regex
    (h : Reaches .start start line spans (.script .code) ('/' :: rest))
    (hline : rest.head? ≠ some '/') (hblock : rest.head? ≠ some '*')
    (hallowed : regexMayFollow (spans.foldl Recall.note .start).script = true)
    (hclosed : (closingSlashes rest).Nonempty) (base : Nat) :
    ∃ place flags left, IsLeast (closingSlashes rest) place ∧
      rest = rest.take (place + 1) ++ (flags ++ left) ∧
      (∀ c ∈ flags, c.isAlpha = true) ∧ (∀ c ∈ left.head?, c.isAlpha = false) ∧
      TakesCode line start base spans .regex ('/' :: (rest.take (place + 1) ++ flags)) left := by
  obtain ⟨place, hleast, hpattern⟩ := (isThroughFirst_patternWidth? rest).exists_isLeast hclosed
  obtain ⟨flags, left, hrest, hflags, hleft, hrun⟩ :=
    exists_run Char.isAlpha (rest.drop (place + 1))
  have hsplit : rest = rest.take (place + 1) ++ (flags ++ left) := by
    rw [← hrest, List.take_append_drop]
  have hwidth : regexWidth? rest = some (1 + (place + 1) + flags.length) := by
    rw [regexWidth?, hpattern, Option.map_some, hrun]
  have hstep : step (spans.foldl Recall.note .start) (.script .code) '/' rest =
      one .regex (1 + (place + 1) + flags.length) .code := by
    refine Eq.trans ?_ (slash_of_regexWidth? hline hblock hwidth)
    rw [← hallowed]
    rfl
  have htakes := takesCode_of_step h (by omega) hstep base
  -- The width is that of the slash, the pattern and its flags.
  have hcons : '/' :: rest = '/' :: (rest.take (place + 1) ++ flags) ++ left := by
    rw [List.cons_append, List.append_assoc, ← hsplit]
  have hlength : 1 + (place + 1) + flags.length =
      ('/' :: (rest.take (place + 1) ++ flags)).length := by
    have hlt := (List.getElem?_eq_some_iff.1 hleast.1.1.1).1
    rw [List.length_cons, List.length_append, List.length_take_of_le hlt]
    omega
  have htake : ('/' :: rest).take (1 + (place + 1) + flags.length) =
      '/' :: (rest.take (place + 1) ++ flags) := by
    rw [hcons, hlength]
    exact List.take_left
  have hdrop : ('/' :: rest).drop (1 + (place + 1) + flags.length) = left := by
    rw [hcons, hlength]
    exact List.drop_left
  rw [htake, hdrop] at htakes
  exact ⟨place, flags, left, hleast, hsplit, hflags, hleft, htakes⟩

/-- Where none may start or its pattern is not closed, a slash is an operator. -/
theorem takesCode_slashOperator
    (h : Reaches .start start line spans (.script .code) ('/' :: rest))
    (hline : rest.head? ≠ some '/') (hblock : rest.head? ≠ some '*')
    (hnone : regexMayFollow (spans.foldl Recall.note .start).script = true →
      closingSlashes rest = ∅) (base : Nat) :
    TakesCode line start base spans .operator (slashOperator rest)
      (('/' :: rest).drop (slashOperator rest).length) := by
  have hstep : step (spans.foldl Recall.note .start) (.script .code) '/' rest =
      one .operator (slashOperator rest).length .code :=
    slash_of_not hline hblock fun hallowed => regexWidth?_eq_none (hnone hallowed)
  have hpos : 0 < (slashOperator rest).length := by
    unfold slashOperator
    split <;> simp
  have htake : ('/' :: rest).take (slashOperator rest).length = slashOperator rest := by
    rw [slashOperator_append rest, List.take_left]
  have htakes := takesCode_of_step h hpos hstep base
  rwa [htake] at htakes

/-- In the code of a script a slash that opens no comment is a regular expression if and only if no
code stands before it on the line, or the last of it is such that a regular expression may follow,
and the pattern is closed on the line. The regular expression goes through the first closing slash
and the letters behind it. Otherwise the slash is an operator, alone or with an equals sign behind
it. -/
theorem slash_exact (h : Reaches .start start line spans (.script .code) ('/' :: rest))
    (hline : rest.head? ≠ some '/') (hblock : rest.head? ≠ some '*') (base : Nat) :
    let lexed := tokenize .off line base start
    let here := base + byteLength (spelled spans)
    let starts := (∀ prev ∈ (lexed.codeBefore here).getLast?, prev.MayPrecedeRegex) ∧
      (closingSlashes rest).Nonempty
    ((∃ token ∈ lexed.tokens, token.offset = here ∧ token.kind = .regex) ↔ starts) ∧
    (starts → ∃ place flags left, IsLeast (closingSlashes rest) place ∧
      rest = rest.take (place + 1) ++ (flags ++ left) ∧
      (∀ c ∈ flags, c.isAlpha = true) ∧ (∀ c ∈ left.head?, c.isAlpha = false) ∧
      TakesCode line start base spans .regex ('/' :: (rest.take (place + 1) ++ flags)) left) ∧
    (¬starts → TakesCode line start base spans .operator (slashOperator rest)
      (('/' :: rest).drop (slashOperator rest).length)) := by
  intro lexed here starts
  have hallowed := h.regexMayFollow_iff base
  have hregex := fun hstarts : starts =>
    exists_takesCode_regex h hline hblock (hallowed.2 hstarts.1) hstarts.2 base
  have hoperator : ¬starts → TakesCode line start base spans .operator (slashOperator rest)
      (('/' :: rest).drop (slashOperator rest).length) := by
    intro hnot
    refine takesCode_slashOperator h hline hblock (fun hprev => ?_) base
    exact Set.not_nonempty_iff_eq_empty.1 fun hclosed => hnot ⟨hallowed.1 hprev, hclosed⟩
  refine ⟨⟨?_, ?_⟩, hregex, hoperator⟩
  · -- If none starts here, the token here is an operator.
    rintro ⟨token, htoken, hoffset, hkind⟩
    by_contra hnot
    have hother := (hoperator hnot).kind_unique htoken hoffset
    rw [hkind] at hother
    cases hother
  · intro hstarts
    obtain ⟨_, _, _, -, -, -, -, htakes⟩ := hregex hstarts
    exact ⟨_, htakes.mem, rfl, rfl⟩

end

/-- A slash behind an equals sign with a comment between starts a regular expression, whose pattern
holds a slash in a class and one that is escaped. -/
theorem slash_exact_of_comment :
    let line := "x = /*c*/ /[/]\\//gi".toList
    let spans := (haltAfter 6 .start (.script .code) line).spans
    let rest := "[/]\\//gi".toList
    Reaches .start (.script .code) line spans (.script .code) ('/' :: rest) ∧
      rest.head? ≠ some '/' ∧ rest.head? ≠ some '*' ∧
      ∃ token ∈ (tokenize .off line 5 (.script .code)).tokens,
        token.offset = 15 ∧ token.kind = .regex := by
  intro line spans rest
  have hreach : Reaches .start (.script .code) line spans (.script .code) ('/' :: rest) :=
    reaches_of_haltAfter_eq 6 (by decide +kernel)
  have hhere : 5 + byteLength (spelled spans) = 15 := by
    decide +kernel
  have hprev : ∀ prev ∈ ((tokenize .off line 5 (.script .code)).codeBefore 15).getLast?,
      prev.MayPrecedeRegex := by
    decide +kernel
  have hclosed : 5 ∈ closingSlashes rest := by
    decide +kernel
  have hslash := (slash_exact hreach (by decide) (by decide) 5).1
  rw [hhere] at hslash
  exact ⟨hreach, by decide, by decide, hslash.2 ⟨hprev, 5, hclosed⟩⟩

end Script

end LineLexer
