import LineLexer.Proofs.LineBreak
import LineLexer.Proofs.LineBreak.Measure
import LineLexer.Proofs.Scan.AfterOperator
import LineLexer.Proofs.Scan.Recall
import LineLexer.Proofs.Span.Carve

/-!
# Scanning across a line break

Where a line is joined to a text, each move in the text stays as it is, or it is the one that takes
all of the text in one piece and then takes in what the move at the line break takes (`Joins`). So
the spans of both are spliced, if they are so where the text is empty (`Bridges`), and the scan of
the second line goes on with what is recalled of the first (`spliced_scan`).
-/

namespace LineLexer

/-- What a move from the head of a text becomes where the text is joined with another line: it is
the same, or it takes all of the text in one piece and what the move at the line break takes. -/
inductive Joins (next text : Text) (move joined : Move) : Prop
  | same (hmove : joined = move) (hwidth : move.width ≤ text.length)
  | extended {kind : Kind} {language : Language} {flags : Flags} {stay after : ResumeState}
      {width : Nat} (hlanguage : language ≠ .script) (hwidth : 0 < width)
      (hmove : move = ⟨[⟨kind, text.length, language, flags⟩], stay⟩)
      (hjoined : joined = ⟨[⟨kind, text.length + width, language, flags⟩], after⟩)
      (hbreak : ∀ past, step past stay '\n' next = ⟨[⟨kind, width, language, flags⟩], after⟩)

/-- From a state, the spans of a line break and a line are those of the line, but that one of them
holds the break, and both end in the same state. -/
structure Bridges (past : Recall) (state : ResumeState) (next : Text) : Prop where
  spans : ∃ (mid : Span) (tail : Text) (back : List Span),
    (scan past state next).spans = mid.sub tail ++ back ∧
      (scan past state ('\n' :: next)).spans = { mid with text := '\n' :: tail } :: back
  finish : (scan past state ('\n' :: next)).finish = (scan past state next).finish

/-! ## Moves of one piece -/

section

variable {next : Text} {kind : Kind} {language : Language} {flags : Flags} {stay : ResumeState}

/-- Some characters that are there join as they are. -/
theorem Joins.chars {text : Text} {width : Nat} (h : width ≤ text.length) :
    Joins next text ⟨[⟨kind, width, language, flags⟩], stay⟩
      ⟨[⟨kind, width, language, flags⟩], stay⟩ :=
  .same rfl (by simpa using h)

/-- A character and a run that a line break ends join as they are. -/
theorem Joins.run {p : Char → Bool} (h : p '\n' = false) {c : Char} {rest : Text} :
    Joins next (c :: rest) ⟨[⟨kind, runLength p rest + 1, language, flags⟩], stay⟩
      ⟨[⟨kind, runLength p (rest ++ '\n' :: next) + 1, language, flags⟩], stay⟩ := by
  rw [runLength_join h]
  exact .chars (Nat.succ_le_succ (runLength_le p rest))

/-- Blanks join. -/
theorem Joins.blanks (hlanguage : language ≠ .script) {c : Char} {rest : Text}
    (hstay : ∀ past, step past stay '\n' next =
      ⟨[⟨kind, runLength isBlank next + 1, language, flags⟩], stay⟩) :
    Joins next (c :: rest) ⟨[⟨kind, runLength isBlank rest + 1, language, flags⟩], stay⟩
      ⟨[⟨kind, runLength isBlank (rest ++ '\n' :: next) + 1, language, flags⟩], stay⟩ := by
  rcases runLength_isBlank_join rest next with ⟨hall, hjoin⟩ | hsame
  · -- The run reaches the line break and goes on behind it.
    refine .extended hlanguage (Nat.succ_pos _) ?_ ?_ hstay
    · rw [hall]
      rfl
    · rw [hjoin, List.length_cons, Nat.add_right_comm]
  · rw [hsame]
    exact .chars (Nat.succ_le_succ (runLength_le isBlank rest))

/-- Moves that one test decides join, if they do so on either branch. -/
theorem Joins.ite {text : Text} {test : Prop} [Decidable test] {yes no yesJoined noJoined : Move}
    (hyes : test → Joins next text yes yesJoined) (hno : ¬test → Joins next text no noJoined) :
    Joins next text (if test then yes else no) (if test then yesJoined else noJoined) := by
  split
  next h => exact hyes h
  next h => exact hno h

/-- A closing tag joins as it is. -/
theorem joins_closeElement {tag text : Text} (htag : 2 ≤ tag.length)
    (h : atClosingTag tag text = true) (next : Text) :
    Joins next text (closeElement tag) (closeElement tag) := by
  rw [atClosingTag, Bool.and_eq_true, startsWithFolded_iff] at h
  obtain ⟨⟨first, rest, rfl, hlen, -⟩, -⟩ := h
  refine .same rfl ?_
  simp only [closeElement, Move.width_pair, List.length_append]
  omega

end

/-! ## Spans across the break -/

/-- Pieces that lie within a text are carved off it alike with more text after it. -/
theorem carve_join {pieces : List Piece} {text : Text} (h : totalWidth pieces ≤ text.length)
    (more : Text) : carve pieces (text ++ more) = carve pieces text := by
  induction pieces generalizing text with
  | nil => rfl
  | cons piece pieces ih =>
    rw [totalWidth] at h
    have htake : (text ++ more).take piece.width = text.take piece.width :=
      List.take_append_of_le_length (by omega)
    have hdrop : (text ++ more).drop piece.width = text.drop piece.width ++ more :=
      List.drop_append_of_le_length (by omega)
    have hrest : totalWidth pieces ≤ (text.drop piece.width).length := by
      rw [List.length_drop]
      omega
    simp only [carve, htake, hdrop, ih hrest]

/-- Outside scripts, what is recalled of a span does not depend on its text. -/
theorem Recall.note_congr {language : Language} (hl : language ≠ .script) (past : Recall)
    (kind : Kind) (flags : Flags) (text other : Text) :
    past.note ⟨kind, language, text, flags⟩ = past.note ⟨kind, language, other, flags⟩ := by
  simp [note, hl]

/-- Outside scripts, a span is recalled alike once and twice. -/
theorem Recall.note_note {language : Language} (hl : language ≠ .script) (past : Recall)
    (kind : Kind) (flags : Flags) (text other : Text) :
    (past.note ⟨kind, language, text, flags⟩).note ⟨kind, language, other, flags⟩ =
      past.note ⟨kind, language, text, flags⟩ := by
  simp only [note]
  split <;> simp [hl]

/-- A state in which blanks are taken, and nothing else changes, bridges the line break. -/
theorem bridges_of_blanks {state : ResumeState} (language : Language)
    (hstep : ∀ past c rest, isBlank c = true → step past state c rest =
      ⟨[⟨.whitespace, runLength isBlank rest + 1, language, .empty⟩], state⟩)
    (past : Recall) (next : Text) : Bridges past state next := by
  have hnote : ∀ text, past.note ⟨.whitespace, language, text, .empty⟩ = past := fun text => by
    simp [Recall.note]
  have hbreak : scan past state ('\n' :: next) =
      ⟨⟨.whitespace, language, '\n' :: next.take (runLength isBlank next), .empty⟩ ::
          (scan past state (next.drop (runLength isBlank next))).spans,
        (scan past state (next.drop (runLength isBlank next))).finish⟩ := by
    rw [scan_cons_singleton (Nat.succ_pos _) (hstep past '\n' next (by decide)), hnote]
    rfl
  have hline : scan past state next =
      ⟨(Span.mk .whitespace language [] .empty).sub (next.take (runLength isBlank next)) ++
          (scan past state (next.drop (runLength isBlank next))).spans,
        (scan past state (next.drop (runLength isBlank next))).finish⟩ := by
    cases next with
    | nil => rfl
    | cons c rest =>
      cases hc : isBlank c with
      | false =>
        have hrun : runLength isBlank (c :: rest) = 0 := by simp [runLength, hc]
        rw [hrun]
        rfl
      | true =>
        have hrun : runLength isBlank (c :: rest) = runLength isBlank rest + 1 := by
          simp [runLength, hc]
        rw [scan_cons_singleton (Nat.succ_pos _) (hstep past c rest hc), hnote, hrun]
        rfl
  refine ⟨⟨_, _, _, congrArg Scanned.spans hline, congrArg Scanned.spans hbreak⟩, ?_⟩
  rw [hbreak, hline]

/-- A state bridges the line break if the piece at the break is one character wider than the piece
at the line behind it. -/
theorem bridges_of_piece {past : Recall} {state after : ResumeState} {next : Text} {kind : Kind}
    {language : Language} {flags : Flags} {width : Nat} (hl : language ≠ .script)
    (hbreak : step past state '\n' next = ⟨[⟨kind, width + 1, language, flags⟩], after⟩)
    (hline : next = [] ∧ width = 0 ∧ after = state ∨ ∃ c rest, next = c :: rest ∧ 0 < width ∧
      step past state c rest = ⟨[⟨kind, width, language, flags⟩], after⟩) :
    Bridges past state next := by
  have hscan := scan_cons_singleton (Nat.succ_pos _) hbreak
  rcases hline with ⟨rfl, rfl, rfl⟩ | ⟨c, rest, rfl, hwidth, hstep⟩
  · refine ⟨⟨⟨kind, language, [], flags⟩, [], [], by simp [Span.sub], ?_⟩, ?_⟩
    · simp [hscan]
    · simp [hscan]
  · have hline := scan_cons_singleton hwidth hstep
    rw [Recall.note_congr hl past kind flags _ ((c :: rest).take width)] at hscan
    refine ⟨⟨⟨kind, language, [], flags⟩, (c :: rest).take width, _, ?_,
      congrArg Scanned.spans hscan⟩, ?_⟩
    · have hne : (c :: rest).take width ≠ [] := by simp; omega
      rw [hline]
      simp [Span.sub, hne]
    · rw [hscan, hline]
      rfl

/-! ## Constructs that go on over a break -/

/-- Takes the body of a construct in one piece, as far as it is measured, or all of it and stays in
the construct. -/
def measured (measure : Text → Option Nat) (kind : Kind) (language : Language)
    (closed stay : ResumeState) (lead : Nat) (body : Text) : Move :=
  match measure body with
  | some width => ⟨[⟨kind, lead + width, language, .empty⟩], closed⟩
  | none => ⟨[⟨kind, lead + body.length, language, .empty⟩], stay⟩

section

variable {measure : Text → Option Nat} {next : Text} {kind : Kind} {language : Language}
  {closed stay : ResumeState}

/-- A construct joins. -/
theorem joins_measured (h : GoesOver measure next) (hlanguage : language ≠ .script) {lead : Nat}
    {text body : Text} (htext : text.length = lead + body.length)
    (hstay : ∀ past, step past stay '\n' next =
      measured measure kind language closed stay 0 ('\n' :: next)) :
    Joins next text (measured measure kind language closed stay lead body)
      (measured measure kind language closed stay lead (body ++ '\n' :: next)) := by
  simp only [measured, h.join, h.cons] at hstay ⊢
  -- The construct ends in the text, or behind the break, or nowhere.
  cases hbody : measure body with
  | some width =>
    have := h.le hbody
    exact .chars (by omega)
  | none =>
    -- What is taken behind the text is what is taken at the break.
    suffices hpiece : ∀ width after, 0 < width →
        (∀ past, step past stay '\n' next = ⟨[⟨kind, width, language, .empty⟩], after⟩) →
        Joins next text ⟨[⟨kind, lead + body.length, language, .empty⟩], stay⟩
          ⟨[⟨kind, text.length + width, language, .empty⟩], after⟩ by
      cases hnext : measure next with
      | some width =>
        have hwidth : lead + (width + (body.length + 1)) = text.length + (width + 1) := by omega
        simp only [Option.none_or, Option.map_some, hwidth]
        exact hpiece _ _ (Nat.succ_pos _) fun past => by simp [hstay, hnext]
      | none =>
        have hwidth : lead + (body ++ '\n' :: next).length =
            text.length + (next.length + 1) := by
          rw [List.length_append, List.length_cons]
          omega
        simp only [Option.none_or, Option.map_none, hwidth]
        exact hpiece _ _ (Nat.succ_pos _) fun past => by simp [hstay, hnext]
    intro width after hwidth hbreak
    exact .extended hlanguage hwidth (by rw [htext]) rfl hbreak

/-- The state of an open construct bridges the line break. A construct that is measured as empty
leaves the line to the state behind it, and that asks for nothing but the last code. -/
theorem bridges_of_measured (h : GoesOver measure next) (hlanguage : language ≠ .script)
    (hclosed : (∀ tag, closed ≠ .markup (.startTag tag)) ∨
      ∀ {text width}, measure text = some width → 0 < width)
    (hstep : ∀ past c rest, step past stay c rest =
      measured measure kind language closed stay 0 (c :: rest)) (past : Recall) :
    Bridges past stay next := by
  have hbreak := hstep past '\n' next
  rw [measured, h.cons] at hbreak
  cases hnext : measure next with
  | none =>
    rw [hnext, Option.map_none] at hbreak
    have hpiece : step past stay '\n' next =
        ⟨[⟨kind, next.length + 1, language, .empty⟩], stay⟩ := by
      simpa using hbreak
    refine bridges_of_piece hlanguage hpiece ?_
    cases next with
    | nil => exact .inl ⟨rfl, rfl, rfl⟩
    | cons c rest =>
      refine .inr ⟨c, rest, rfl, Nat.succ_pos _, ?_⟩
      rw [hstep, measured, hnext]
      simp
  | some width =>
    rw [hnext, Option.map_some] at hbreak
    obtain ⟨c, rest, rfl⟩ : ∃ c rest, next = c :: rest := by
      cases next with
      | nil =>
        rw [h.nil] at hnext
        cases hnext
      | cons c rest => exact ⟨c, rest, rfl⟩
    have hline := hstep past c rest
    rw [measured, hnext] at hline
    rcases Nat.eq_zero_or_pos width with rfl | hpos
    · -- Nothing of the line belongs to the construct, and both go on in the state behind it.
      have hclosed : ∀ tag, closed ≠ .markup (.startTag tag) :=
        hclosed.resolve_right fun hpos => absurd (hpos hnext) (Nat.lt_irrefl 0)
      have hscript : (past.note ⟨kind, language, ['\n'], .empty⟩).script = past.script := by
        rw [Recall.script_note, if_neg]
        simp [Span.isCode, hlanguage]
      have hempty : scan past stay (c :: rest) = scan past closed (c :: rest) := by
        rw [scan_cons, hline]
        rfl
      have hwhole : scan past stay ('\n' :: c :: rest) =
          ⟨⟨kind, language, ['\n'], .empty⟩ :: (scan past closed (c :: rest)).spans,
            (scan past closed (c :: rest)).finish⟩ := by
        rw [scan_cons_singleton (Nat.succ_pos _) (by simpa using hbreak)]
        simp only [List.take_succ_cons, List.take_zero, List.drop_succ_cons, List.drop_zero]
        rw [scan_eq_outside_tags _ closed (c :: rest) past hscript hclosed]
      refine ⟨⟨⟨kind, language, [], .empty⟩, [], (scan past closed (c :: rest)).spans, ?_, ?_⟩, ?_⟩
      · rw [hempty]
        rfl
      · rw [hwhole]
      · rw [hwhole, hempty]
    · have hpiece : step past stay '\n' (c :: rest) =
          ⟨[⟨kind, width + 1, language, .empty⟩], closed⟩ := by
        simpa using hbreak
      exact bridges_of_piece hlanguage hpiece (.inr ⟨c, rest, rfl, hpos, by simpa using hline⟩)

end

/-! ## Lines -/

/-- A scan of joined lines takes what the first move takes, if the move stays as it is and lies in
the first line, and goes on with what the move leaves of the line, joined with the second. -/
theorem scan_join_of_same {past : Recall} {state : ResumeState} {c : Char} {rest next : Text}
    (hmove : step past state c (rest ++ '\n' :: next) = step past state c rest)
    (hwidth : (step past state c rest).width ≤ (c :: rest).length) :
    scan past state (c :: rest ++ '\n' :: next) =
      let move := step past state c rest
      let spans := carve move.pieces (c :: rest)
      let more := scan (spans.foldl Recall.note past) move.next
        ((c :: rest).drop move.width ++ '\n' :: next)
      ⟨spans ++ more.spans, more.finish⟩ := by
  have hcarve : carve (step past state c rest).pieces (c :: rest ++ '\n' :: next) =
      carve (step past state c rest).pieces (c :: rest) :=
    carve_join hwidth _
  have hdrop : (c :: rest ++ '\n' :: next).drop (step past state c rest).width =
      (c :: rest).drop (step past state c rest).width ++ '\n' :: next :=
    drop_join hwidth
  rw [List.cons_append] at hcarve hdrop ⊢
  simp only [scan_cons, hmove, hcarve, hdrop]

/-- The spans of two lines and of both joined are spliced, if a piece takes all of the first line
and takes in what the move at the line break takes. -/
theorem spliced_of_extended {past : Recall} {state stay after : ResumeState} {c : Char}
    {rest next : Text} {kind : Kind} {language : Language} {flags : Flags} {width : Nat}
    (hl : language ≠ .script) (hwidth : 0 < width)
    (hmove : step past state c rest = ⟨[⟨kind, (c :: rest).length, language, flags⟩], stay⟩)
    (hjoined : step past state c (rest ++ '\n' :: next) =
      ⟨[⟨kind, (c :: rest).length + width, language, flags⟩], after⟩)
    (hbreak : ∀ past, step past stay '\n' next = ⟨[⟨kind, width, language, flags⟩], after⟩)
    (hbridge : ∀ past, Bridges past stay next) :
    Spliced (scan past state (c :: rest)).spans
        (scan ((scan past state (c :: rest)).spans.foldl Recall.note past)
          (scan past state (c :: rest)).finish next).spans
        (scan past state (c :: (rest ++ '\n' :: next))).spans ∧
      (scan past state (c :: (rest ++ '\n' :: next))).finish =
        (scan ((scan past state (c :: rest)).spans.foldl Recall.note past)
          (scan past state (c :: rest)).finish next).finish := by
  let whole : Span := ⟨kind, language, c :: rest, flags⟩
  have hfirst : scan past state (c :: rest) = ⟨[whole], stay⟩ := by
    rw [scan_cons_singleton (Nat.succ_pos _) hmove]
    simp [whole]
  have hdrop : (c :: (rest ++ '\n' :: next)).drop ((c :: rest).length + width) =
      ('\n' :: next).drop width :=
    List.drop_length_add_append ..
  have htake : (c :: (rest ++ '\n' :: next)).take ((c :: rest).length + width) =
      c :: rest ++ ('\n' :: next).take width :=
    List.take_length_add_append ..
  -- What follows the piece is the same behind the joined lines and behind the line break.
  obtain ⟨⟨mid, tail, back, hline, hlineBreak⟩, hfinish⟩ := hbridge (past.note whole)
  rw [scan_cons_singleton hwidth (hbreak _), Recall.note_note hl] at hlineBreak hfinish
  rw [hfirst, scan_cons_singleton (by simp only [List.length_cons]; omega) hjoined, hdrop, htake,
    Recall.note_congr hl past kind flags _ (c :: rest)]
  obtain ⟨hmid, hback⟩ := List.cons.inj hlineBreak
  obtain ⟨hkind, hlanguage, htext, hflags⟩ := Span.mk.inj hmid
  refine ⟨⟨[], mid, c :: rest, tail, back, ?_, hline, ?_⟩, hfinish⟩
  · simp [Span.sub, whole, hkind, hlanguage, hflags]
  · rw [hback, htext, hkind, hlanguage, hflags]
    rfl

section

variable (Host : ResumeState → Prop) (Fits : Span → Prop) {next : Text}

/-- From a host state, a scan whose spans fit ends in a host state, if a move whose spans fit leads
to one. -/
theorem host_finish
    (hstep : ∀ past state c rest, Host state →
      (∀ span ∈ carve (step past state c rest).pieces (c :: rest), Fits span) →
        Host (step past state c rest).next)
    (past : Recall) (state : ResumeState) (text : Text) :
    Host state → (∀ span ∈ (scan past state text).spans, Fits span) →
      Host (scan past state text).finish := by
  fun_induction scan past state text with
  | case1 => exact fun hhost _ => hhost
  | case2 past state c rest move spans more ih =>
    intro hhost hfits
    exact ih (hstep past state c rest hhost fun span h => hfits span (List.mem_append_left _ h))
      fun span h => hfits span (List.mem_append_right _ h)

/-- The spans of two lines and of both joined are spliced, where the second line is scanned with
what is recalled of the first. This holds of all lines whose spans fit, if from every host state
each move whose spans fit joins and leads to a host state again, and if a host state bridges the
line break. -/
theorem spliced_scan
    (hstep : ∀ past state c rest, Host state →
      (∀ span ∈ carve (step past state c rest).pieces (c :: rest), Fits span) →
        Joins next (c :: rest) (step past state c rest) (step past state c (rest ++ '\n' :: next)) ∧
          Host (step past state c rest).next)
    (hbridge : ∀ past state, Host state → Bridges past state next)
    (past : Recall) (state : ResumeState) (text : Text) :
    Host state → (∀ span ∈ (scan past state text).spans, Fits span) →
      Spliced (scan past state text).spans
          (scan ((scan past state text).spans.foldl Recall.note past) (scan past state text).finish
            next).spans
          (scan past state (text ++ '\n' :: next)).spans ∧
        (scan past state (text ++ '\n' :: next)).finish =
          (scan ((scan past state text).spans.foldl Recall.note past) (scan past state text).finish
            next).finish := by
  fun_induction scan past state text with
  | case1 past state =>
    intro hhost _
    obtain ⟨⟨mid, tail, back, hline, hbreak⟩, hfinish⟩ := hbridge past state hhost
    exact ⟨⟨[], mid, [], tail, back, rfl, hline, hbreak⟩, hfinish⟩
  | case2 past state c rest move spans more ih =>
    intro hhost hfits
    obtain ⟨hjoins, hnext⟩ := hstep past state c rest hhost
      fun span hspan => hfits span (List.mem_append_left _ hspan)
    obtain ⟨hspliced, hfinish⟩ := ih hnext
      fun span hspan => hfits span (List.mem_append_right _ hspan)
    cases hjoins with
    | same hmove hwidth =>
      rw [scan_join_of_same hmove hwidth]
      simp only [List.foldl_append]
      exact ⟨hspliced.append spans, hfinish⟩
    | extended hl hwidth hmove hjoined hbreak =>
      -- The piece goes on over the line break, where its state bridges the two lines.
      have hscan : (⟨spans ++ more.spans, more.finish⟩ : Scanned) = scan past state (c :: rest) :=
        (scan_cons past state c rest).symm
      rw [hmove] at hnext
      rw [hscan]
      exact spliced_of_extended hl hwidth hmove hjoined hbreak fun past => hbridge past _ hnext

end

end LineLexer
