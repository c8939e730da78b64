import LineLexer.Proofs.Grammar.Script
import LineLexer.Proofs.Scan.Language
import LineLexer.Proofs.Scan.Recall

/-!
# Script blocks on one line

A resume state for the code of a script says that a regular expression may come first. Where a
script is entered on the line at hand, the scan still recalls the code of the blocks before it, and
a slash that starts the new block is read by that. So the rest of the line is lexed as it would be
alone exactly if a regular expression may follow the last code before it, or if alone it does not
start with one (`tokenize_after_startTag_iff`).

The two scans of the rest differ in one answer. They go the same way to the first span of code, and
that span is either the same in both, after which they recall the same, or a regular expression in
the one and an operator in the other (`scan_cases`).
-/

namespace LineLexer

/-! ## Moves with different answers -/

namespace Script

/-- Leave for a regular expression makes a difference only where an operator becomes one. -/
theorem move_eq_or_regex (state : ScriptState) (c : Char) (rest : Text) :
    move false state c rest = move true state c rest ∨
      (∃ width, 0 < width ∧ move false state c rest = one .operator width .code) ∧
        ∃ width, 0 < width ∧ move true state c rest = one .regex width .code := by
  cases state with
  | comment => exact .inl rfl
  | literal quote valid => exact .inl rfl
  | template valid => exact .inl rfl
  | interpolation depth => exact .inl rfl
  | code =>
    simp only [move, code]
    split
    · exact .inl rfl
    split
    · exact .inl rfl
    split
    · simp only [slash]
      split
      · exact .inl rfl
      split
      · exact .inl rfl
      simp only [Bool.false_eq_true, if_false, if_true]
      split
      next width h =>
        exact .inr ⟨⟨_, operatorWidth_pos _, rfl⟩, ⟨width, regexWidth?_pos h, rfl⟩⟩
      · exact .inl rfl
    · exact .inl rfl

end Script

section

variable {past other : Recall}

/-- Two moves after the same answer on operators, of which only the second has leave for a regular
expression, are the same, or an operator and a regular expression in code. -/
theorem step_eq_or_regex (hop : (past.solid == some .operator) = (other.solid == some .operator))
    (hpast : Script.regexMayFollow past.script = false)
    (hother : Script.regexMayFollow other.script = true) (state : ResumeState) (c : Char)
    (rest : Text) :
    step past state c rest = step other state c rest ∨
      (∃ width, 0 < width ∧ step past state c rest = Script.one .operator width .code) ∧
        ∃ width, 0 < width ∧ step other state c rest = Script.one .regex width .code := by
  cases state with
  | markup state => exact .inl (by simp only [step, hop])
  | style state => exact .inl rfl
  | script state =>
    simp only [step, hpast, hother]
    exact Script.move_eq_or_regex state c rest

/-- Without leave, no code that a move cuts off is a regular expression. -/
theorem ne_regex_of_mem_step (hpast : Script.regexMayFollow past.script = false)
    {state : ResumeState} {c : Char} {rest : Text} {span : Span}
    (h : span ∈ carve (step past state c rest).pieces (c :: rest)) (hcode : span.isCode = true) :
    span.kind ≠ .regex := by
  have hscript : span.language = .script := by
    simp only [Span.isCode, Bool.and_eq_true, beq_iff_eq] at hcode
    exact hcode.1.1
  obtain ⟨here, rfl⟩ := exists_script_of_mem_step h hscript
  obtain ⟨piece, hpiece, hkind, -, -⟩ := exists_piece_of_mem_carve h
  rw [hkind]
  simp only [step, hpast] at hpiece
  exact Script.ne_regex_of_mem_move hpiece

end

/-- A piece of a script that is neither blank nor a comment is the first code of a scan that starts
with it. -/
theorem exists_first_of_one {past : Recall} {state : ResumeState} {c : Char} {rest : Text}
    {kind : Kind} {width : Nat} {next : ScriptState} (hblank : kind ≠ .whitespace)
    (hcomment : kind.isComment = false) (hw : 0 < width)
    (hmove : step past state c rest = Script.one kind width next) :
    ∃ first ∈ (scan past state (c :: rest)).spans.find? Span.isCode, first.kind = kind := by
  have hcarve : carve (step past state c rest).pieces (c :: rest) =
      [⟨kind, .script, (c :: rest).take width, .empty⟩] := by
    rw [hmove]
    exact carve_singleton hw (List.cons_ne_nil c rest)
  refine ⟨⟨kind, .script, (c :: rest).take width, .empty⟩, ?_, rfl⟩
  simp only [scan_cons, hcarve, List.cons_append, Option.mem_def]
  exact List.find?_cons_of_pos (by simp [Span.isCode, Span.isSolid, hblank, hcomment])

/-- Two scans after the same answer on operators, of which only the second starts with leave for a
regular expression: either they are the same and the first code is no regular expression, or it is
one in the second scan and an operator in the first. -/
theorem scan_cases (other : Recall) (state : ResumeState) (text : Text) :
    ∀ past : Recall, (past.solid == some .operator) = (other.solid == some .operator) →
      Script.regexMayFollow past.script = false → Script.regexMayFollow other.script = true →
      (scan past state text = scan other state text ∧
        ∀ first ∈ (scan other state text).spans.find? Span.isCode, first.kind ≠ .regex) ∨
      (∃ first ∈ (scan past state text).spans.find? Span.isCode, first.kind = .operator) ∧
        ∃ first ∈ (scan other state text).spans.find? Span.isCode, first.kind = .regex := by
  fun_induction scan other state text with
  | case1 other state => exact fun past _ _ _ => .inl ⟨scan_nil .., by simp⟩
  | case2 other state c rest move spans more ih =>
    intro past hop hpast hother
    rcases step_eq_or_regex hop hpast hother state c rest with
      hsame | ⟨⟨w, hw, hpm⟩, v, hv, hom⟩
    · have hscan : scan past state (c :: rest) =
          ⟨spans ++ (scan (spans.foldl Recall.note past) move.next
              ((c :: rest).drop move.width)).spans,
            (scan (spans.foldl Recall.note past) move.next
              ((c :: rest).drop move.width)).finish⟩ := by
        rw [scan_cons, hsame]
      rw [hscan]
      by_cases hcode : spans.any Span.isCode = true
      · -- After the first code both scans recall the same.
        have hmore : scan (spans.foldl Recall.note past) move.next ((c :: rest).drop move.width) =
            more := scan_congr _ _ _ _ (Recall.alike_of_code hcode past other)
        refine .inl ⟨by rw [hmore], ?_⟩
        intro first hfirst
        obtain ⟨span, hspan⟩ := Option.isSome_iff_exists.1 (List.find?_isSome.2
          (List.any_eq_true.1 hcode))
        rw [List.find?_append, hspan] at hfirst
        obtain rfl : span = first := Option.some.inj hfirst
        have hmem : span ∈ carve (step past state c rest).pieces (c :: rest) := by
          rw [hsame]
          exact List.mem_of_find?_eq_some hspan
        exact ne_regex_of_mem_step hpast hmem (List.find?_some hspan)
      · -- Without code the answers stay as they are.
        have hnone : spans.find? Span.isCode = none := by
          simpa using hcode
        have hscript : ∀ before : Recall, (spans.foldl Recall.note before).script =
            before.script := by
          intro before
          refine Recall.script_foldl_note_of_forall (fun span hspan => ?_) before
          simpa using List.find?_eq_none.1 hnone span hspan
        simp only [List.find?_append, hnone, Option.none_or]
        rcases ih (spans.foldl Recall.note past) (Recall.operator_foldl_note hop spans)
          (by rw [hscript]; exact hpast) (by rw [hscript]; exact hother) with ⟨heq, hfirst⟩ | h
        · exact .inl ⟨by rw [heq], hfirst⟩
        · exact .inr h
    · have hfirst := exists_first_of_one (by decide) (by decide) hv hom
      rw [scan_cons] at hfirst
      exact .inr ⟨exists_first_of_one (by decide) (by decide) hw hpm, hfirst⟩

/-! ## The tokens after a start tag -/

/-- What is lexed from an offset on. -/
def Lexed.after (lexed : Lexed) (offset : Nat) : Lexed :=
  { lexed with tokens := lexed.tokens.filter (offset ≤ ·.offset) }

/-- Tokens of a script that are neither blank nor a comment. -/
def Token.isCode (token : Token) : Bool :=
  token.span.isCode

/-- The first token of code has the kind of the first span of code. -/
theorem find?_isCode_placeFrom (scope : LinkScope) (offset : Nat) (spans : List Span) :
    ((placeFrom offset (spans.flatMap (Span.split scope))).find? Token.isCode).map Token.kind =
      (spans.find? Span.isCode).map Span.kind := by
  rw [show Token.isCode = Span.isCode ∘ Token.span from rfl, kind_find?_placeFrom]
  induction spans with
  | nil => rfl
  | cons span spans ih =>
    -- All parts of a split are code if the span is, and there is at least one.
    have hparts : ∀ part ∈ span.split scope, part.isCode = span.isCode := by
      intro part hpart
      simp only [Span.isCode, Span.isSolid, Span.kind_of_mem_split hpart]
    rw [List.flatMap_cons, List.find?_append]
    obtain ⟨part, parts, hsplit⟩ := List.exists_cons_of_ne_nil (Span.split_ne_nil scope span)
    have hpart : part ∈ span.split scope := by simp [hsplit]
    cases hcode : span.isCode with
    | true =>
      rw [hsplit, List.find?_cons_of_pos (by rw [hparts part hpart, hcode]),
        List.find?_cons_of_pos hcode, Option.some_or, Option.map_some, Option.map_some,
        (Span.kind_of_mem_split hpart).1]
    | false =>
      have hnone : (span.split scope).find? Span.isCode = none :=
        List.find?_eq_none.2 fun other hother => by simp [hparts other hother, hcode]
      rw [hnone, Option.none_or, ih, List.find?_cons_of_neg (by simp [hcode])]

section

variable {line rest : Text} {state : ResumeState} {spans : List Span} {bracket : Span}

/-- From the end of a start tag on, a line has the tokens of the spans that are scanned from there
with what is recalled of those before. -/
theorem after_tokenize (scope : LinkScope) (base : Nat) {next : ResumeState}
    (hreach : Reaches .start state line (spans ++ [bracket]) next rest)
    (hbracket : bracket.IsDelimiter ">".toList) :
    (tokenize scope line base state).after (base + byteLength (spelled (spans ++ [bracket]))) =
      ⟨placeFrom (base + byteLength (spelled (spans ++ [bracket])))
          ((scan ((spans ++ [bracket]).foldl Recall.note .start) next rest).spans.flatMap
            (Span.split scope)),
        (scan ((spans ++ [bracket]).foldl Recall.note .start) next rest).finish⟩ := by
  have hsplit : bracket.split scope = [bracket] := by
    simp [Span.split, hbracket.kind]
  have hspelled : byteLength (spelled (spans ++ [bracket])) = byteLength (spelled spans) + 1 := by
    rw [spelled, List.flatMap_append, byteLength_append]
    simp only [List.flatMap_cons, List.flatMap_nil, List.append_nil, hbracket.text_eq]
    rfl
  have hfront : ∀ token ∈ placeFrom base ((spans ++ [bracket]).flatMap (Span.split scope)),
      token.offset < base + byteLength (spelled (spans ++ [bracket])) := by
    intro token htoken
    rw [List.flatMap_append, placeFrom_append, List.flatMap_cons, List.flatMap_nil, hsplit,
      Span.spelled_flatMap_split] at htoken
    rcases List.mem_append.1 htoken with h | h
    · have := bounds_of_mem_placeFrom h
      simp only [Span.spelled_flatMap_split, Token.stop] at this
      omega
    · obtain rfl := List.mem_singleton.1 h
      simp only [Span.place]
      omega
  simp only [tokenize, Lexed.after, hreach.scan_eq]
  rw [List.flatMap_append, placeFrom_append, Span.spelled_flatMap_split, List.filter_append,
    List.filter_eq_nil_iff.2 fun token htoken => by simpa using hfront token htoken,
    List.filter_eq_self.2 fun token htoken => by simpa using (bounds_of_mem_placeFrom htoken).1,
    List.nil_append]

/-- From the end of a start tag that enters a script on, a line is lexed as the rest alone exactly
if a regular expression may follow the last code before, or if alone the rest does not start with
one. -/
theorem tokenize_after_startTag_iff (scope : LinkScope) (base : Nat)
    (hreach : Reaches .start state line (spans ++ [bracket]) (.script .code) rest)
    (hbracket : bracket.IsDelimiter ">".toList) :
    let here := base + byteLength (spelled (spans ++ [bracket]))
    let alone := tokenize scope rest here (.script .code)
    (tokenize scope line base state).after here = alone ↔
      (∀ last ∈ (spans.filter Span.isCode).getLast?,
        Script.regexMayFollow (some (last.kind, last.text)) = true) ∨
      ∀ first ∈ alone.tokens.find? Token.isCode, first.kind ≠ .regex := by
  intro here alone
  have hafter := after_tokenize scope base hreach hbracket
  generalize hpast : (spans ++ [bracket]).foldl Recall.note .start = past at hafter
  have hop : (past.solid == some .operator) = (Recall.start.solid == some .operator) := by
    have hsolid : bracket.isSolid = true := by simp [Span.isSolid, hbracket.kind]
    rw [← hpast, List.foldl_append, List.foldl_cons, List.foldl_nil, Recall.solid_note,
      if_pos hsolid, hbracket.kind]
    rfl
  have hscript : past.script =
      (spans.filter Span.isCode).getLast?.map fun span => (span.kind, span.text) := by
    have hmarkup : bracket.isCode = false := by simp [Span.isCode, hbracket.language]
    rw [← hpast, List.foldl_append, List.foldl_cons, List.foldl_nil, Recall.script_note,
      if_neg (by simp [hmarkup]), Recall.script_foldl_note]
    exact Option.or_none
  have hleave : (∀ last ∈ (spans.filter Span.isCode).getLast?,
      Script.regexMayFollow (some (last.kind, last.text)) = true) ↔
        Script.regexMayFollow past.script = true := by
    rw [hscript]
    cases (spans.filter Span.isCode).getLast? <;> simp [Script.regexMayFollow]
  have hkind : (alone.tokens.find? Token.isCode).map Token.kind =
      ((scan .start (.script .code) rest).spans.find? Span.isCode).map Span.kind :=
    find?_isCode_placeFrom scope here _
  rw [hafter, hleave]
  cases hanswer : Script.regexMayFollow past.script with
  | true =>
    have hscan : scan past (.script .code) rest = scan .start (.script .code) rest :=
      scan_congr past _ _ .start ⟨hop, hanswer⟩
    rw [hscan]
    exact iff_of_true rfl (.inl rfl)
  | false =>
    rcases scan_cases .start (.script .code) rest past hop hanswer rfl with
      ⟨hscan, hfirst⟩ | ⟨⟨operator, hoperator, hok⟩, ⟨regex, hregex, hrk⟩⟩
    · rw [hscan]
      refine iff_of_true rfl (.inr fun first hf => ?_)
      rw [Option.mem_def.1 hf] at hkind
      obtain ⟨span, hspan, hk⟩ := Option.map_eq_some_iff.1 hkind.symm
      rw [← hk]
      exact hfirst span hspan
    · rw [hregex] at hkind
      obtain ⟨first, hf, hk⟩ := Option.map_eq_some_iff.1 hkind
      refine iff_of_false (fun heq => ?_) (not_or.2 ⟨by simp, fun h => ?_⟩)
      · -- The same tokens would have the same first code.
        have htokens : placeFrom here ((scan past (.script .code) rest).spans.flatMap
            (Span.split scope)) = alone.tokens := congrArg Lexed.tokens heq
        have hother := find?_isCode_placeFrom scope here (scan past (.script .code) rest).spans
        rw [htokens, hoperator, hf, Option.map_some, Option.map_some, hk, hok, hrk] at hother
        cases hother
      · exact h first hf (hk.trans hrk)

end

/-- A second script whose slash starts a regular expression, as the first one ends in an equals
sign. -/
theorem after_startTag_of_equals :
    let line := "<script>a=</script><script>/b/".toList
    let spans := (haltAfter 8 .start .initial line).spans.dropLast
    let bracket : Span := ⟨.markupTagDelimiter, .markup, ">".toList, .empty⟩
    Reaches .start .initial line (spans ++ [bracket]) (.script .code) "/b/".toList ∧
      bracket.IsDelimiter ">".toList ∧
      (tokenize .off line 0 .initial).after 27 = tokenize .off "/b/".toList 27 (.script .code) := by
  intro line spans bracket
  have hreach : Reaches .start .initial line (spans ++ [bracket]) (.script .code)
      "/b/".toList :=
    reaches_of_haltAfter_eq 8 (by decide +kernel)
  have hbracket : bracket.IsDelimiter ">".toList := ⟨rfl, rfl, rfl⟩
  have hlast : ∀ last ∈ (spans.filter Span.isCode).getLast?,
      Script.regexMayFollow (some (last.kind, last.text)) = true := by
    decide +kernel
  have hhere : 0 + byteLength (spelled (spans ++ [bracket])) = 27 := by
    decide +kernel
  have h := (tokenize_after_startTag_iff .off 0 hreach hbracket).2 (.inl hlast)
  simp only [hhere] at h
  exact ⟨hreach, hbracket, h⟩

/-- The code of an earlier script on the line can make a division of what is a regular expression
where the rest of the line stands alone. -/
theorem exists_after_startTag_ne : ∃ (scope : LinkScope) (line rest : Text) (base : Nat)
    (state : ResumeState) (spans : List Span) (bracket : Span),
    Reaches .start state line (spans ++ [bracket]) (.script .code) rest ∧
      bracket.IsDelimiter ">".toList ∧
      (tokenize scope line base state).after
          (base + byteLength (spelled (spans ++ [bracket]))) ≠
        tokenize scope rest (base + byteLength (spelled (spans ++ [bracket])))
          (.script .code) := by
  let line := "<script>a</script><script>/b/".toList
  let spans := (haltAfter 7 .start .initial line).spans.dropLast
  let bracket : Span := ⟨.markupTagDelimiter, .markup, ">".toList, .empty⟩
  have hreach : Reaches .start .initial line (spans ++ [bracket]) (.script .code)
      "/b/".toList :=
    reaches_of_haltAfter_eq 7 (by decide +kernel)
  have hne : (tokenize .off line 0 .initial).after
      (0 + byteLength (spelled (spans ++ [bracket]))) ≠
        tokenize .off "/b/".toList (0 + byteLength (spelled (spans ++ [bracket])))
          (.script .code) := by
    decide +kernel
  exact ⟨.off, line, "/b/".toList, 0, .initial, spans, bracket, hreach, ⟨rfl, rfl, rfl⟩, hne⟩

end LineLexer
