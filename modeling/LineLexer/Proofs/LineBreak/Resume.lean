import LineLexer.Proofs.LineBreak.Scan
import LineLexer.Proofs.LineBreak.Script

/-!
# Constructs of scripts resumed on the next line

A line that stays in a comment, a literal or a template of a script, and the line behind it, are
lexed as one text with a line break between them, but that a literal of the first line may turn out
to be malformed on the second (`construct_line_break`).

The state at the end of the first line says all that the second needs (`scan_eq_resume`). What the
second line is not told is what came before a slash in code, and behind the construct it does not
ask for that: a closed literal or template is a value, whatever its text, and comments are passed
over (`scan_resume_congr`).
-/

namespace LineLexer

/-- Pieces of literals and templates are code. -/
theorem Span.isCode_of_isScriptLiteral {span : Span} (hkind : span.kind.isScriptLiteral = true)
    (hlanguage : span.language = .script) : span.isCode = true := by
  obtain ⟨kind, language, text, flags⟩ := span
  obtain rfl : language = .script := hlanguage
  cases kind <;> first | rfl | cases hkind

/-- Spans of comments leave the code that was recalled before. -/
theorem Recall.script_foldl_note_of_comments {spans : List Span}
    (h : ∀ span ∈ spans, span.kind ∈ Script.Construct.comment.kinds) (past : Recall) :
    (spans.foldl Recall.note past).script = past.script := by
  refine script_foldl_note_of_forall (fun span hspan => ?_) past
  have hkind : span.kind = .commentMultiline := List.mem_singleton.1 (h span hspan)
  simp [Span.isCode, hkind, Kind.isComment]

namespace Script

/-! ## What is recalled behind a construct -/

/-- The marks that close literals and templates. -/
def closingMarks : List Char :=
  "\"'`".toList

/-- A literal that holds a closing mark is a value: no regular expression may follow. -/
theorem regexMayFollow_of_mem {kind : Kind} {text : Text} {mark : Char}
    (hkind : kind.isScriptLiteral = true) (hmark : mark ∈ closingMarks) (hmem : mark ∈ text) :
    regexMayFollow (some (kind, text)) = false := by
  -- Of literals, only a text made of punctuation would let one follow, and closing marks are none.
  have hmarks : (closingMarks.all fun mark => !"=(,?:[!&|;{}".toList.contains mark) = true := by
    decide
  have hout : "=(,?:[!&|;{}".toList.contains mark = false := by
    simpa only [Bool.not_eq_true'] using List.all_eq_true.1 hmarks mark hmark
  have hall : (text.all fun c => "=(,?:[!&|;{}".toList.contains c) = false :=
    List.all_eq_false.2 ⟨mark, hmem, by rw [hout]; decide⟩
  have hword : (kind == .reservedWord) = false ∧ (kind == .reservedWord2) = false ∧
      (kind == .operator) = false := by
    cases kind <;> simp [Kind.isScriptLiteral] at hkind ⊢
  simp only [regexMayFollow, hword, hall, Bool.false_and, Bool.and_false, Bool.or_false]

/-- What is taken within a literal or a template is pieces of them. -/
theorem isScriptLiteral_of_mem_resume {state : ScriptState} (hcode : state ≠ .code)
    (hcomment : state ≠ .comment) {lead : Nat} {text : Text} {piece : Piece}
    (h : piece ∈ (resume lead text state).pieces) :
    piece.kind.isScriptLiteral = true ∧ piece.language = .script := by
  have hone : ∀ {kind width next}, kind.isScriptLiteral = true →
      piece ∈ (one kind width next).pieces →
        piece.kind.isScriptLiteral = true ∧ piece.language = .script := by
    intro kind width next hkind hmem
    obtain rfl := List.mem_singleton.1 hmem
    exact ⟨hkind, rfl⟩
  have htemplate : ∀ valid, (templateKind valid).isScriptLiteral = true := by decide
  cases state with
  | code => exact absurd rfl hcode
  | comment => exact absurd rfl hcomment
  | literal quote valid =>
    refine hone ?_ h
    split <;> cases quote <;> rfl
  | template valid =>
    simp only [resume, template] at h
    split at h
    · exact hone (htemplate _) h
    · exact hone (htemplate _) h
    · simp only [List.mem_cons, List.not_mem_nil, or_false] at h
      rcases h with rfl | rfl
      · exact ⟨htemplate _, rfl⟩
      · exact ⟨rfl, rfl⟩
  | interpolation depth => exact hone rfl h

/-- A move that is one piece takes that piece only. -/
theorem eq_of_eq_one {kind onlyKind : Kind} {width onlyWidth : Nat} {back : List Piece}
    {after next : ScriptState}
    (h : (⟨piece kind width :: back, .script after⟩ : Move) = one onlyKind onlyWidth next) :
    kind = onlyKind ∧ width = onlyWidth ∧ back = [] ∧ after = next := by
  simp only [one, piece, Move.mk.injEq, List.cons.injEq, Piece.mk.injEq,
    ResumeState.script.injEq, and_true] at h
  exact ⟨h.1.1.1, h.1.1.2, h.1.2, h.2⟩

/-- What is taken in a state goes on in the script. -/
theorem staysIn_resume (lead : Nat) (text : Text) (state : ScriptState) :
    (resume lead text state).StaysIn .script := by
  cases state with
  | code => exact staysIn_one ..
  | comment => exact staysIn_comment ..
  | literal quote valid => exact staysIn_one ..
  | template valid => exact staysIn_template ..
  | interpolation depth => exact staysIn_one ..

/-- A move that starts with a piece of a construct stays in the script, since a closing tag belongs
to none. -/
theorem next_language_of_isConstruct {regexAllowed : Bool} {state : ScriptState} {c : Char}
    {rest : Text}
    (h : ∀ first others, (move regexAllowed state c rest).pieces = first :: others →
      0 < first.width → first.kind.isConstruct = true) :
    (move regexAllowed state c rest).next.language = .script := by
  rcases move_language regexAllowed state c rest with hstays | ⟨-, -, hclose⟩
  · exact hstays.next_language
  · have hpieces : (move regexAllowed state c rest).pieces = _ :: _ :=
      congrArg Move.pieces hclose
    cases h _ _ hpieces Nat.two_pos

/-- What is taken of a text within a literal or a template is not empty. -/
theorem resume_width_pos {state : ScriptState} (hcode : state ≠ .code) (hcomment : state ≠ .comment)
    (c : Char) (rest : Text) : 0 < (resume 0 (c :: rest) state).width := by
  have hprogress := move_progresses false state c rest
  rw [move_eq_resume hcode] at hprogress
  refine hprogress.resolve_right ?_
  cases state with
  | code => exact absurd rfl hcode
  | comment => exact absurd rfl hcomment
  | literal quote valid => exact Nat.not_lt_zero _
  | template valid => exact Nat.not_lt_zero _
  | interpolation depth => exact Nat.not_lt_zero _

/-- After what is taken in a state that has a construct open, nothing is left of the text, or
another such state follows that is no comment, or code follows: behind a comment, or behind one
piece that holds the mark that closes it. -/
theorem resume_cases {state : ScriptState} (hcode : state ≠ .code) (text : Text) :
    text.drop (resume 0 text state).width = [] ∨
      (∃ next, next ≠ .code ∧ next ≠ .comment ∧ (resume 0 text state).next = .script next) ∨
      (state = .comment ∧ ∃ width, resume 0 text state = one .commentMultiline width .code) ∨
      ∃ kind width mark, resume 0 text state = one kind width .code ∧
        kind.isScriptLiteral = true ∧ mark ∈ closingMarks ∧ mark ∈ text.take width := by
  cases state with
  | code => exact absurd rfl hcode
  | comment =>
    simp only [resume, comment]
    split
    · exact .inr (.inr (.inl ⟨trivial, _, rfl⟩))
    · exact .inl (by simp)
  | literal quote valid =>
    by_cases hending : (literalBody quote valid text).ending = .closed
    · have hkind : ∀ passes : Bool,
          (if passes then literalKind quote
            else literalErrorKind quote).isScriptLiteral = true := by
        cases quote <;> decide
      have hmark : quote.char ∈ closingMarks := by cases quote <;> decide
      have hmove : resume 0 text (.literal quote valid) =
          one (if (literalBody quote valid text).valid &&
              (literalBody quote valid text).ending != .unterminated then literalKind quote
            else literalErrorKind quote) (literalBody quote valid text).width .code := by
        have hnext : (literalBody quote valid text).ending ≠ .continued := by rw [hending]; decide
        rw [resume, literal, if_neg hnext, Nat.zero_add]
      exact .inr (.inr (.inr ⟨_, _, quote.char, hmove, hkind _, hmark,
        quote_mem_literalBody hending⟩))
    · -- A literal that is not closed ends with the line, open or in error.
      have hwidth := literalBody_width_eq hending
      exact .inl (by simp [resume, literal, hwidth])
  | template valid =>
    simp only [resume, template]
    split
    next hending =>
      refine .inr (.inr (.inr ⟨_, _, '`', by rw [Nat.zero_add], ?_, by decide,
        backquote_mem_templateBody hending⟩))
      cases (templateBody valid text).valid <;> rfl
    next hending =>
      have hwidth := templateBody_width_eq hending
      exact .inl (by simp [hwidth])
    next =>
      -- The interpolation that follows leads back to its template, or it is left open.
      refine .inr (.inl ?_)
      cases (interpolationBody .one
        (text.drop ((templateBody valid text).width + 2))).openBraces with
      | none => exact ⟨.template true, by simp, by simp, rfl⟩
      | some depth => exact ⟨.interpolation depth, by simp, by simp, rfl⟩
  | interpolation depth =>
    cases hopen : (interpolationBody depth text).openBraces with
    | none =>
      exact .inr (.inl ⟨.template true, by simp, by simp, by simp [resume, hopen, one,
        afterInterpolation]⟩)
    | some left =>
      have hwidth := interpolationBody_width_eq hopen
      exact .inl (by simp [resume, hwidth])

end Script

/-! ## What a scan takes of the line behind -/

/-- The spans that a move cuts off a text and those of a scan of what it leaves. -/
def scanAfter (past : Recall) (move : Move) (text : Text) : Scanned :=
  let spans := carve move.pieces text
  let more := scan (spans.foldl Recall.note past) move.next (text.drop move.width)
  ⟨spans ++ more.spans, more.finish⟩

/-- Within a literal or a template, a scan does not ask what came before. -/
theorem scan_eq_in_literal {state : ScriptState} (hcode : state ≠ .code)
    (hcomment : state ≠ .comment) (past other : Recall) (text : Text) :
    scan past (.script state) text = scan other (.script state) text := by
  cases text with
  | nil => rw [scan_nil, scan_nil]
  | cons c rest =>
    have hscan : ∀ past, scan past (.script state) (c :: rest) =
        scanAfter past (Script.resume 0 (c :: rest) state) (c :: rest) := by
      intro past
      rw [scan_cons, step, Script.move_eq_resume hcode]
      rfl
    -- The first move cuts off some code, and then both recall the same.
    have hspans : (carve (Script.resume 0 (c :: rest) state).pieces (c :: rest)).any Span.isCode =
        true := by
      obtain ⟨span, more, hspans⟩ := List.exists_cons_of_ne_nil
        (carve_ne_nil (Script.resume_width_pos hcode hcomment c rest) (List.cons_ne_nil c rest))
      obtain ⟨piece, hpiece, hkind, hlanguage, -⟩ := exists_piece_of_mem_carve
        (show span ∈ carve (Script.resume 0 (c :: rest) state).pieces (c :: rest) by simp [hspans])
      obtain ⟨hliteral, hscript⟩ := Script.isScriptLiteral_of_mem_resume hcode hcomment hpiece
      have hcode : span.isCode = true :=
        Span.isCode_of_isScriptLiteral (hkind ▸ hliteral) (hlanguage.trans hscript)
      rw [hspans, List.any_cons, hcode, Bool.true_or]
    have hscript := Recall.script_foldl_note_eq hspans past other
    have hnext := ne_startTag_of_language
      (by rw [(Script.staysIn_resume 0 (c :: rest) state).next_language]; decide)
    rw [hscan, hscan, scanAfter, scanAfter, scan_eq_outside_tags _ _ _ _ hscript hnext]

/-- A scan from a state that has a construct open takes what is taken in the state, also of an empty
text but for a literal, which an empty line ends in error. -/
theorem scan_eq_resume {state : ScriptState} (hcode : state ≠ .code) {text : Text}
    (hliteral : ∀ quote valid, state = .literal quote valid → text ≠ []) (past : Recall) :
    scan past (.script state) text = scanAfter past (Script.resume 0 text state) text := by
  cases text with
  | cons c rest =>
    rw [scan_cons, step, Script.move_eq_resume hcode]
    rfl
  | nil =>
    -- Nothing is cut off an empty text, so only the state could differ.
    have hnext : (Script.resume 0 [] state).next = .script state := by
      cases state with
      | code => exact absurd rfl hcode
      | comment => rfl
      | literal quote valid => exact absurd rfl (hliteral quote valid rfl)
      | template valid => simp [Script.resume, Script.template, Script.templateBody, Script.one]
      | interpolation depth => rfl
    simp only [scanAfter, carve_nil, hnext, List.drop_nil, scan_nil, List.append_nil]

section

variable {state after : ScriptState} {text : Text} {kind : Kind} {width : Nat} {back : List Piece}

/-- Behind what is taken in a state that has a construct open, a scan goes on alike with more text
at its start. In comments this asks that the same code was recalled before. -/
theorem scan_resume_congr (hcode : state ≠ .code)
    (hresume : Script.resume 0 text state = ⟨Script.piece kind width :: back, .script after⟩)
    {past other : Recall} (hcomment : state = .comment → past.script = other.script)
    (head : Text) (left : Text) (hleft : left = text.drop (width + totalWidth back)) :
    scan ((⟨kind, .script, head ++ text.take width, .empty⟩ ::
        carve back (text.drop width)).foldl Recall.note past) (.script after) left =
      scan ((carve (Script.piece kind width :: back) text).foldl Recall.note other)
        (.script after) left := by
  have hcases := Script.resume_cases hcode text
  rw [hresume] at hcases
  rcases hcases with hnone | ⟨next, hnext, hnextComment, hafter⟩ | ⟨hstate, _, hmove⟩ |
    ⟨_, _, mark, hmove, hkind, hmark, hmem⟩
  · have hnil : left = [] := by rw [hleft]; exact hnone
    rw [hnil, scan_nil, scan_nil]
  · obtain rfl : after = next := by simpa using hafter
    exact scan_eq_in_literal hnext hnextComment _ _ left
  · -- Comments are passed over.
    obtain ⟨rfl, rfl, rfl, rfl⟩ := Script.eq_of_eq_one hmove
    refine scan_eq_outside_tags _ _ _ _ ?_ (ne_startTag_of_language (by decide))
    rw [Recall.script_foldl_note_of_comments, Recall.script_foldl_note_of_comments,
      hcomment hstate]
    · intro span hspan
      obtain ⟨piece, hpiece, hkind, -⟩ := exists_piece_of_mem_carve hspan
      obtain rfl := List.mem_singleton.1 hpiece
      exact List.mem_singleton.2 hkind
    · intro span hspan
      obtain rfl := List.mem_singleton.1 hspan
      exact List.mem_singleton_self _
  · -- The closed construct is a value.
    obtain ⟨rfl, rfl, rfl, rfl⟩ := Script.eq_of_eq_one hmove
    have hvalue : ∀ (recalled : Recall) (text : Text), mark ∈ text →
        Script.regexMayFollow (recalled.note ⟨kind, .script, text, .empty⟩).script = false := by
      intro recalled text hmem
      rw [Recall.script_note, if_pos (Span.isCode_of_isScriptLiteral hkind rfl)]
      exact Script.regexMayFollow_of_mem hkind hmark hmem
    have htake := List.ne_nil_of_mem hmem
    rw [Ne, List.take_eq_nil_iff, not_or] at htake
    refine scan_eq_of_regex ?_ (ne_startTag_of_language (by decide)) left
    rw [carve_singleton (Nat.pos_of_ne_zero htake.1) htake.2]
    exact (hvalue past _ (List.mem_append_right head hmem)).trans (hvalue other _ hmem).symm

end

/-! ## Spans that are spliced up to an error -/

/-- Spans of two lines, and of both joined by a line break, that are spliced but for the kind of the
last span of the first line, which turns out to be an error. -/
def SplicedUpToError (first second joined : List Span) : Prop :=
  ∃ (front : List Span) (mid : Span) (kind : Kind) (head : Text),
    (mid.kind = kind ∨ kind.errorKind? = some mid.kind) ∧
      first = front ++ { mid with kind := kind }.sub head ∧
      Spliced (front ++ mid.sub head) second joined

/-- Spans before both lines and before the joined ones keep them spliced up to an error. -/
theorem SplicedUpToError.append {first second joined : List Span}
    (h : SplicedUpToError first second joined) (spans : List Span) :
    SplicedUpToError (spans ++ first) second (spans ++ joined) := by
  obtain ⟨front, mid, kind, head, hkind, rfl, hspliced⟩ := h
  refine ⟨spans ++ front, mid, kind, head, hkind, (List.append_assoc ..).symm, ?_⟩
  rw [List.append_assoc]
  exact hspliced.append spans

/-- The first of some pieces carves what is there of its span. -/
theorem carve_cons_sub (piece : Piece) (pieces : List Piece) (text : Text) :
    carve (piece :: pieces) text =
      (Span.mk piece.kind piece.language [] piece.flags).sub (text.take piece.width) ++
        carve pieces (text.drop piece.width) := by
  simp only [carve, Span.sub]
  split <;> rfl

/-- The spans of two lines and of both joined are spliced up to an error, if the last piece of the
first line takes in what its state takes of the line behind. -/
theorem spliced_of_goesOn {past other : Recall} (front : List Piece) (width : Nat)
    {stay : ScriptState} {text next : Text} (hstay : stay ≠ .code)
    (hnext : ∀ quote valid, stay = .literal quote valid → next ≠ [])
    (hwidth : totalWidth front + width = text.length)
    (hcomment : stay = .comment →
      ((carve front text).foldl Recall.note past).script = other.script) :
    let move := Script.resume (width + 1) next stay
    let joined := scanAfter past ⟨front ++ move.pieces, move.next⟩ (text ++ '\n' :: next)
    SplicedUpToError (carve (front ++ [Script.piece (Script.openKind stay) width]) text)
        (scan other (.script stay) next).spans joined.spans ∧
      joined.finish = (scan other (.script stay) next).finish := by
  intro move joined
  obtain ⟨kind, taken, back, after, hkind, hresume⟩ := Script.exists_resume stay next
  have hzero := hresume 0
  rw [Nat.zero_add] at hzero
  obtain ⟨head, hhead⟩ : ∃ head, text.drop (totalWidth front) = head := ⟨_, rfl⟩
  obtain rfl : head.length = width := by
    rw [← hhead, List.length_drop]
    omega
  have hmove : move = ⟨Script.piece kind (head.length + 1 + taken) :: back, .script after⟩ :=
    hresume _
  have hsplit : ∀ more : Text, (text ++ more).drop (totalWidth front) = head ++ more := by
    intro more
    rw [List.drop_append_of_le_length (by omega), hhead]
  have htake : (head ++ '\n' :: next).take (head.length + 1 + taken) =
      head ++ '\n' :: next.take taken := by
    rw [Nat.add_assoc, List.take_length_add_append, Nat.add_comm 1, List.take_succ_cons]
  have hdrop : (head ++ '\n' :: next).drop (head.length + 1 + taken) = next.drop taken := by
    rw [Nat.add_assoc, List.drop_length_add_append, Nat.add_comm 1, List.drop_succ_cons]
  have hcarve : carve (front ++ move.pieces) (text ++ '\n' :: next) = carve front text ++
      ⟨kind, .script, head ++ '\n' :: next.take taken, .empty⟩ ::
        carve back (next.drop taken) := by
    have hpos : 0 < head.length + 1 + taken := by omega
    rw [carve_append, carve_join (by omega), hsplit, hmove, carve_cons hpos (by simp)]
    simp only [Script.piece, htake, hdrop]
  have hleft : (text ++ '\n' :: next).drop (totalWidth (front ++ move.pieces)) =
      next.drop (taken + totalWidth back) := by
    rw [totalWidth_append, ← List.drop_drop, hsplit, hmove, totalWidth, ← List.drop_drop]
    simp only [Script.piece, hdrop, List.drop_drop]
  -- What is left of the second line is scanned alike.
  have hmore : scan ((carve (front ++ move.pieces) (text ++ '\n' :: next)).foldl Recall.note past)
        (.script after) (next.drop (taken + totalWidth back)) =
      scan ((carve (Script.piece kind taken :: back) next).foldl Recall.note other)
        (.script after) (next.drop (taken + totalWidth back)) := by
    have hcongr := scan_resume_congr hstay hzero hcomment (head ++ ['\n']) _ rfl
    rwa [List.append_assoc, List.singleton_append, ← List.foldl_append, ← hcarve] at hcongr
  generalize hrest : scan ((carve (Script.piece kind taken :: back) next).foldl Recall.note other)
    (.script after) (next.drop (taken + totalWidth back)) = more at hmore
  have hjoined : joined =
      ⟨carve (front ++ move.pieces) (text ++ '\n' :: next) ++ more.spans, more.finish⟩ := by
    have hafter : move.next = .script after := by rw [hmove]
    simp only [joined, scanAfter, Move.width, hleft, hafter, hmore]
  have hsecond : scan other (.script stay) next =
      ⟨carve (Script.piece kind taken :: back) next ++ more.spans, more.finish⟩ := by
    rw [scan_eq_resume hstay hnext, hzero, ← hrest]
    rfl
  rw [hjoined, hsecond, hcarve]
  let mid : Span := ⟨kind, .script, [], .empty⟩
  refine ⟨⟨carve front text, mid, Script.openKind stay, head, hkind, ?_, ?_⟩, rfl⟩
  · rw [carve_append, carve_cons_sub, hhead]
    simp [Script.piece, carve, mid]
  · refine ⟨carve front text, mid, head, next.take taken,
      carve back (next.drop taken) ++ more.spans, rfl, ?_, ?_⟩
    · rw [carve_cons_sub, List.append_assoc]
      rfl
    · rw [List.append_assoc, List.cons_append]

/-! ## Lines that stay in a construct -/

/-- A scan whose first move takes all of the text. -/
theorem scan_of_whole {past : Recall} {state : ResumeState} {c : Char} {rest : Text}
    (h : (step past state c rest).width = (c :: rest).length) :
    scan past state (c :: rest) =
      ⟨carve (step past state c rest).pieces (c :: rest), (step past state c rest).next⟩ := by
  have hleft : (c :: rest).drop (step past state c rest).width = [] :=
    List.drop_of_length_le (by omega)
  simp only [scan_cons, hleft, scan_nil, List.append_nil]

section

variable {construct : Script.Construct} {stay : ScriptState} {other : Recall} {next : Text}

/-- From a script, the spans of a line that stays in a construct, of the line behind it and of both
joined are spliced up to an error. -/
theorem spliced_of_construct (hstay : Script.construct? stay = some construct)
    (hnext : ∀ quote, construct = .literal quote → next ≠ []) (past : Recall)
    (state : ResumeState) (text : Text) :
    state.language = .script →
      (∀ span ∈ (scan past state text).spans, span.kind ∈ construct.kinds) →
      (scan past state text).finish = .script stay →
      (construct = .comment → past.script = other.script) →
      SplicedUpToError (scan past state text).spans (scan other (.script stay) next).spans
          (scan past state (text ++ '\n' :: next)).spans ∧
        (scan past state (text ++ '\n' :: next)).finish =
          (scan other (.script stay) next).finish := by
  have hcode : stay ≠ .code := by
    rintro rfl
    cases hstay
  have hliteral : ∀ quote valid, stay = .literal quote valid → next ≠ [] := by
    rintro quote valid rfl
    exact hnext quote (Option.some.inj hstay).symm
  have hcomment : stay = .comment → construct = .comment := by
    rintro rfl
    exact (Option.some.inj hstay).symm
  -- By induction on the scan of the first line. What carries it for comments is that no code comes
  -- before them on the line, so what is recalled at its start is still recalled at its end.
  fun_induction scan past state text with
  | case1 past state =>
    rintro - - (rfl : state = .script stay) hscript
    have hbreak : scan past (.script stay) ('\n' :: next) =
        scanAfter past ⟨[] ++ (Script.resume (0 + 1) next stay).pieces,
          (Script.resume (0 + 1) next stay).next⟩ ([] ++ '\n' :: next) := by
      rw [scan_cons, step, Script.move_break]
      rfl
    have hscript' : stay = .comment →
        ((carve [] []).foldl Recall.note past).script = other.script :=
      fun h => hscript (hcomment h)
    rw [List.nil_append, hbreak]
    exact spliced_of_goesOn [] 0 hcode hliteral rfl hscript'
  | case2 past state c rest move spans more ih =>
    intro hstate hkinds hfinish hscript
    obtain ⟨state, rfl⟩ : ∃ inner, state = .script inner := by
      cases state with
      | markup state => cases hstate
      | style state => cases hstate
      | script state => exact ⟨state, rfl⟩
    -- All that the line holds belongs to the construct, so every move starts with a piece of one.
    have hfirst : ∀ first others, move.pieces = first :: others → 0 < first.width →
        first.kind.isConstruct = true := by
      intro first others hpieces hwidth
      have hspans : spans = _ :: _ :=
        (congrArg (carve · (c :: rest)) hpieces).trans (carve_cons hwidth (List.cons_ne_nil _ _) _)
      exact Script.Construct.isConstruct_of_mem
        (hkinds _ (List.mem_append_left _ (hspans ▸ List.mem_cons_self)))
    have hline : (⟨spans ++ more.spans, more.finish⟩ : Scanned) =
        scan past (.script state) (c :: rest) :=
      (scan_cons past (.script state) c rest).symm
    have hcases : Script.Resumes next (c :: rest) (step past (.script state) c rest)
        (step past (.script state) c (rest ++ '\n' :: next)) ∨
          ∃ first others, move.pieces = first :: others ∧ 0 < first.width ∧
            first.kind.isConstruct = false :=
      Script.resumes_move (Script.regexMayFollow past.script) state c rest next
    rcases hcases with hresumes | ⟨first, others, hpieces, hwidth, hkind⟩
    · cases hresumes with
      | same hsame hwidth =>
        have hnext : move.next.language = .script := Script.next_language_of_isConstruct hfirst
        have hscript' : construct = .comment →
            (spans.foldl Recall.note past).script = other.script := by
          rintro rfl
          rw [Recall.script_foldl_note_of_comments, hscript rfl]
          exact fun span hspan => hkinds span (List.mem_append_left _ hspan)
        obtain ⟨hspliced, hfinish⟩ := ih hnext
          (fun span hspan => hkinds span (List.mem_append_right _ hspan)) hfinish hscript'
        rw [scan_join_of_same hsame hwidth]
        exact ⟨hspliced.append spans, hfinish⟩
      | ends hnext hwidth =>
        -- The line would end in code.
        rw [hline, scan_of_whole hwidth] at hfinish
        exact absurd (ResumeState.script.inj (hnext.symm.trans hfinish)).symm hcode
      | @goesOn front width inner hinner hmove hwidth hjoined =>
        have hwhole : (step past (.script state) c rest).width = (c :: rest).length := by
          rw [← hwidth, hmove, Move.width, totalWidth_append]
          rfl
        have hscan := scan_of_whole hwhole
        rw [hmove] at hscan
        rw [hline, hscan] at hkinds hfinish ⊢
        obtain rfl : inner = stay := ResumeState.script.inj hfinish
        have hscript' : inner = .comment →
            ((carve front (c :: rest)).foldl Recall.note past).script = other.script := by
          intro hinner
          obtain rfl := hcomment hinner
          rw [Recall.script_foldl_note_of_comments, hscript rfl]
          intro span hspan
          refine hkinds span ?_
          rw [carve_append]
          exact List.mem_append_left _ hspan
        have hjoin : scan past (.script state) (c :: rest ++ '\n' :: next) = scanAfter past
            ⟨front ++ (Script.resume (width + 1) next inner).pieces,
              (Script.resume (width + 1) next inner).next⟩ (c :: rest ++ '\n' :: next) := by
          rw [← hjoined, List.cons_append, scan_cons]
          rfl
        rw [hjoin]
        exact spliced_of_goesOn front width hcode hliteral hwidth hscript'
    · -- The piece would belong to no construct.
      rw [hfirst first others hpieces hwidth] at hkind
      cases hkind

end

/-! ## Tokens that agree up to an error -/

/-- A token has the label of another one, but that its kind may be the error that the other turns
out to be. -/
structure Token.MatchesUpToError (token other : Token) : Prop where
  kind : token.kind = other.kind ∨ other.kind.errorKind? = some token.kind
  language : token.language = other.language
  flags : token.flags = other.flags

/-- Tokens agree with other tokens on the bytes from one position up to another, but that some of
the others turn out to be errors. -/
structure AgreeUpToError (low high : Nat) (tokens others : List Token) : Prop where
  covers : ∀ pos, low ≤ pos → pos < high → ∃ token ∈ tokens, ∃ other ∈ others,
    token.Covers pos ∧ other.Covers pos ∧ token.MatchesUpToError other
  starts : ∀ pos, low < pos → pos < high →
    ((∃ token ∈ tokens, token.offset = pos) ↔ ∃ other ∈ others, other.offset = pos)

/-- What is lexed of two lines as one text with a line break between them agrees with what is lexed
of the lines one after the other, but that literals of the first line may turn out to be errors. -/
structure Lexed.IsJoinUpToError (joined first second : Lexed) (base : Nat) (line next : Text) :
    Prop where
  finish : joined.finish = second.finish
  first : AgreeUpToError base (base + byteLength line) joined.tokens first.tokens
  second : AgreeOn (base + byteLength line + 1) (base + byteLength line + 1 + byteLength next)
    joined.tokens second.tokens

/-- With another kind for the last span, each token has the same place and text, and the same label
but for that kind. -/
theorem exists_relabeled {front : List Span} {mid : Span} {head : Text} {base : Nat} {token : Token}
    (h : token ∈ placeFrom base (front ++ mid.sub head)) (kind : Kind) :
    ∃ other ∈ placeFrom base (front ++ ({ mid with kind := kind } : Span).sub head),
      other.offset = token.offset ∧ other.text = token.text ∧ other.language = token.language ∧
        other.flags = token.flags ∧
        (other.kind = token.kind ∨ token.kind = mid.kind ∧ other.kind = kind) := by
  rcases mem_placeFrom_append.1 h with hmem | hmem
  · exact ⟨token, mem_placeFrom_append.2 (.inl hmem), rfl, rfl, rfl, rfl, .inl rfl⟩
  · obtain ⟨hhead, rfl⟩ := mem_placeFrom_sub.1 hmem
    exact ⟨_, mem_placeFrom_append.2 (.inr (mem_placeFrom_sub.2 ⟨hhead, rfl⟩)), rfl, rfl, rfl, rfl,
      .inr ⟨rfl, rfl⟩⟩

/-- Joined lines whose spans are spliced up to an error agree with both lines, up to errors on the
first. -/
theorem SplicedUpToError.isJoin {joined first second : Scanned}
    (h : SplicedUpToError first.spans second.spans joined.spans)
    (hfinish : joined.finish = second.finish) (base : Nat) :
    Lexed.IsJoinUpToError ⟨placeFrom base joined.spans, joined.finish⟩
      ⟨placeFrom base first.spans, first.finish⟩
      ⟨placeFrom (base + byteLength (spelled first.spans) + 1) second.spans, second.finish⟩
      base (spelled first.spans) (spelled second.spans) := by
  obtain ⟨front, mid, kind, head, hkind, hfirst, hspliced⟩ := h
  have hspelled : spelled (front ++ mid.sub head) = spelled first.spans := by
    rw [hfirst]
    simp
  have hagreeFirst := hspliced.agreeOn_first base
  have hagreeSecond := hspliced.agreeOn_second base
  rw [hspelled] at hagreeFirst hagreeSecond
  refine ⟨hfinish, ⟨?_, ?_⟩, hagreeSecond⟩
  · intro pos hlow hhigh
    -- The token of the spliced lines at the position is that of the first line but for its kind.
    obtain ⟨token, htoken, other, hother, hcovers, hotherCovers, hlabel⟩ :=
      hagreeFirst.covers pos hlow hhigh
    obtain ⟨relabeled, hmem, hoffset, htext, hlanguage, hflags, hkinds⟩ :=
      exists_relabeled hother kind
    simp only [Token.label, Prod.mk.injEq] at hlabel
    obtain ⟨hlabelKind, hlabelLanguage, hlabelFlags⟩ := hlabel
    refine ⟨token, htoken, relabeled, by rw [hfirst]; exact hmem, hcovers, ?_, ?_,
      hlabelLanguage.trans hlanguage.symm, hlabelFlags.trans hflags.symm⟩
    · simpa only [Token.Covers, Token.stop, Token.length, hoffset, htext] using hotherCovers
    · rcases hkinds with hsame | ⟨hother, hrelabeled⟩
      · exact .inl (hlabelKind.trans hsame.symm)
      · rw [hlabelKind, hother, hrelabeled]
        exact hkind
  · intro pos hlow hhigh
    rw [hagreeFirst.starts pos hlow hhigh, hfirst]
    constructor
    · rintro ⟨other, hother, rfl⟩
      obtain ⟨relabeled, hmem, hoffset, -⟩ := exists_relabeled hother kind
      exact ⟨relabeled, hmem, hoffset⟩
    · rintro ⟨relabeled, hmem, rfl⟩
      obtain ⟨other, hother, hoffset, -⟩ := exists_relabeled hmem mid.kind
      exact ⟨other, hother, hoffset⟩

/-! ## Two lines in a construct -/

/-- A line of a script that holds nothing but pieces of a construct, and stays within it at its end,
and the line behind it are lexed as one text with a line break between them, but that literals of
the first line may turn out to be errors. A literal needs a line behind it that is not empty. -/
theorem construct_line_break (base : Nat) (start stay : ScriptState) (construct : Script.Construct)
    (line next : Text)
    (hline : ∀ token ∈ (tokenize .off line base (.script start)).tokens,
      token.kind ∈ construct.kinds)
    (hfinish : (tokenize .off line base (.script start)).finish = .script stay)
    (hstay : Script.construct? stay = some construct)
    (hnext : ∀ quote, construct = .literal quote → next ≠ []) :
    let first := tokenize .off line base (.script start)
    let second := tokenize .off next (base + byteLength line + 1) first.finish
    let joined := tokenize .off (line ++ '\n' :: next) base (.script start)
    joined.IsJoinUpToError first second base line next := by
  intro first second joined
  have hkinds : ∀ span ∈ (scan .start (.script start) line).spans, span.kind ∈ construct.kinds :=
    forall_scan_of_tokenize hline
  obtain ⟨hspliced, hjoined⟩ := spliced_of_construct hstay hnext .start (.script start) line rfl
    hkinds hfinish fun _ => rfl
  have hlast : (scan .start (.script start) line).finish = .script stay := hfinish
  have hspelled := spelled_scan .start (.script start) line
  rw [← hlast] at hspliced hjoined
  simp only [first, second, joined, tokenize_off]
  simpa only [hspelled, spelled_scan] using hspliced.isJoin hjoined base

/-- The text of a template, of which the second line has a malformed escape, and a division behind
the template. -/
theorem isJoinUpToError_of_escape :
    let line := "$\x7ba\x7db".toList
    let next := "\\x$\x7bc\x7d`/d/".toList
    let first := tokenize .off line 0 (.script (.template true))
    ((∀ token ∈ first.tokens, token.kind ∈ Script.Construct.template.kinds) ∧
        first.finish = .script (.template true)) ∧
      (tokenize .off (line ++ '\n' :: next) 0 (.script (.template true))).IsJoinUpToError first
        (tokenize .off next 6 first.finish) 0 line next := by
  intro line next first
  have hline : ∀ token ∈ first.tokens, token.kind ∈ Script.Construct.template.kinds := by
    decide +kernel
  have hfinish : first.finish = .script (.template true) := by decide +kernel
  exact ⟨⟨hline, hfinish⟩, construct_line_break 0 (.template true) (.template true) .template line
    next hline hfinish rfl (by simp)⟩

end LineLexer
