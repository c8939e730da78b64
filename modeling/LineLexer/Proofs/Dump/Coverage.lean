import LineLexer.Proofs.Dump.Row
import LineLexer.Proofs.Token.Cover

/-!
# What a dump leaves out

The tokens of a line cover what is left of it when its end is trimmed, each position once
(`countP_covers_rows`), and the offsets count the ends too. So of a document exactly the trimmed
characters are in no row (`dump_covers`): the line feeds, and the carriage returns that nothing but
carriage returns separates from a line feed or from the end of the document. That is more than the
terminators, since only the last carriage return before a line feed is a part of one
(`exists_carriageReturn_in_no_row`).
-/

namespace LineLexer

/-! ## Characters at a position -/

/-- Whether the character at a byte position of a document and the text after it are so. -/
def StandsAt (p : Char → Text → Prop) (document : Text) (pos : Nat) : Prop :=
  ∃ before c after, document = before ++ c :: after ∧ byteLength before = pos ∧ p c after

/-- The positions of line terminators: a line feed, or a carriage return directly before one. -/
def IsTerminator : Text → Nat → Prop :=
  StandsAt fun c after => c = '\n' ∨ c = '\r' ∧ after.head? = some '\n'

/-- The positions of trimmed characters: a line feed, or a carriage return of a run that ends at a
line feed or with the document. -/
def IsTrimmed : Text → Nat → Prop :=
  StandsAt fun c after => c = '\n' ∨ c = '\r' ∧
    ((after.dropWhile (· == '\r')).head? = some '\n' ∨ after.dropWhile (· == '\r') = [])

/-- What stands at a position does not depend on the text before it. -/
theorem standsAt_append {p : Char → Text → Prop} (front : Text) {rest : Text} {pos : Nat} :
    StandsAt p (front ++ rest) (byteLength front + pos) ↔ StandsAt p rest pos := by
  constructor
  · rintro ⟨before, c, after, hparts, hpos, hp⟩
    rcases List.append_eq_append_iff.1 hparts with ⟨inner, hbefore, hrest⟩ | ⟨inner, hfront, hrest⟩
    · rw [hbefore, byteLength_append] at hpos
      exact ⟨inner, c, after, hrest, by omega, hp⟩
    · -- The position is not before the end of the front, so it is at that end.
      rw [hfront, byteLength_append] at hpos
      obtain rfl := byteLength_eq_zero.1 (show byteLength inner = 0 by omega)
      rw [byteLength_nil] at hpos
      exact ⟨[], c, after, hrest.symm, by rw [byteLength_nil]; omega, hp⟩
  · rintro ⟨before, c, after, rfl, rfl, hp⟩
    exact ⟨front ++ before, c, after, (List.append_assoc ..).symm, byteLength_append .., hp⟩

/-- The first character stands at the first position. -/
theorem standsAt_zero {p : Char → Text → Prop} {c : Char} {rest : Text} :
    StandsAt p (c :: rest) 0 ↔ p c rest := by
  constructor
  · rintro ⟨before, d, after, hparts, hpos, hp⟩
    obtain rfl := byteLength_eq_zero.1 hpos
    obtain ⟨rfl, rfl⟩ := List.cons_eq_cons.1 hparts
    exact hp
  · exact fun hp => ⟨[], c, rest, rfl, rfl, hp⟩

/-- After the carriage returns of the end of a line comes its line feed, or nothing. -/
theorem EndsLine.dropWhile {tail rest : Text} (h : EndsLine tail rest) :
    ((tail ++ rest).dropWhile (· == '\r')).head? = some '\n' ∨
      (tail ++ rest).dropWhile (· == '\r') = [] := by
  induction h with
  | newline rest => exact .inl rfl
  | stop => exact .inr rfl
  | more _ ih => simpa using ih

/-- All of the end of a line is trimmed. -/
theorem EndsLine.isTrimmed {tail rest : Text} (h : EndsLine tail rest) {pos : Nat}
    (hpos : pos < byteLength tail) : IsTrimmed (tail ++ rest) pos := by
  induction h generalizing pos with
  | newline rest =>
    obtain rfl : pos = 0 := Nat.lt_one_iff.1 hpos
    exact standsAt_zero.2 (.inl rfl)
  | stop => cases hpos
  | @more tail rest h ih =>
    cases pos with
    | zero => exact standsAt_zero.2 (.inr ⟨rfl, h.dropWhile⟩)
    | succ pos =>
      have hlen : byteLength ('\r' :: tail) = 1 + byteLength tail := rfl
      rw [Nat.add_comm]
      exact (standsAt_append ['\r']).2 (ih (by omega))

/-- A body does not end in carriage returns: after a run of them, it goes on with a character that
is no line feed. -/
theorem IsBody.dropWhile {within : Text} (h : IsBody ('\r' :: within)) (rest : Text) :
    ∃ c left, (within ++ rest).dropWhile (· == '\r') = c :: left ∧ c ≠ '\n' := by
  induction within with
  | nil => exact absurd rfl h.last
  | cons c within ih =>
    by_cases hc : c = '\r'
    · subst hc
      have hbody : IsBody ('\r' :: within) :=
        ⟨fun hmem => h.newline (List.mem_cons_of_mem _ hmem), by simpa using h.last⟩
      simpa using ih hbody
    · refine ⟨c, within ++ rest, by simp [hc], ?_⟩
      rintro rfl
      exact h.newline (by simp)

/-- Nothing of the body of a line is trimmed. -/
theorem IsBody.not_isTrimmed {body : Text} (h : IsBody body) {rest : Text} {pos : Nat}
    (hpos : pos < byteLength body) : ¬IsTrimmed (body ++ rest) pos := by
  rintro ⟨before, c, after, hparts, rfl, htrimmed⟩
  obtain ⟨inner, outer, -, hbody, hne, hafter⟩ : ∃ inner outer, before = [] ++ inner ∧
      body = inner ++ outer ∧ outer ≠ [] ∧ c :: after = outer ++ rest :=
    border_within hparts.symm (Nat.zero_le _) (by simpa using hpos)
  obtain ⟨d, within, rfl⟩ := List.exists_cons_of_ne_nil hne
  obtain ⟨rfl, rfl⟩ := List.cons_eq_cons.1 hafter
  have hmore : IsBody (c :: within) := by
    refine ⟨fun hmem => h.newline (hbody ▸ List.mem_append_right _ hmem), fun hlast => h.last ?_⟩
    rw [hbody, List.getLast?_append, hlast]
    rfl
  rcases htrimmed with rfl | ⟨rfl, hrun⟩
  · exact hmore.newline List.mem_cons_self
  · obtain ⟨d, left, hleft, hd⟩ := hmore.dropWhile rest
    rw [List.append_eq, hleft] at hrun
    simp [hd] at hrun

/-! ## Positions that rows cover -/

/-- Whether a row shows a token that covers a position. -/
def Row.covers (pos : Nat) : Row → Bool
  | token _ offset _ text _ => offset ≤ pos && pos < offset + byteLength text
  | finish .. => false

/-- Of placed spans, one covers a position that is within what they spell. -/
theorem countP_covers_placeFrom (pos offset : Nat) (spans : List Span) :
    (placeFrom offset spans).countP (·.Covers pos) =
      if offset ≤ pos ∧ pos < offset + byteLength (spelled spans) then 1 else 0 := by
  induction spans generalizing offset with
  | nil => exact (if_neg fun h => Nat.not_lt.2 h.1 h.2).symm
  | cons span spans ih =>
    have hplace : (span.place offset).Covers pos ↔
        offset ≤ pos ∧ pos < offset + byteLength span.text := Iff.rfl
    rw [placeFrom, List.countP_cons, ih, spelled_cons, byteLength_append]
    simp only [decide_eq_true_eq, hplace]
    split_ifs <;> omega

/-- Of the rows of a line, one covers a position that is within the line. -/
theorem countP_covers_rows (scope : LinkScope) (line : Text) (pos number offset : Nat)
    (state : ResumeState) :
    ((tokenize scope line offset state).rows number).countP (Row.covers pos) =
      if offset ≤ pos ∧ pos < offset + byteLength line then 1 else 0 := by
  have htoken : (Row.covers pos ∘ Token.row number) = fun token : Token => token.Covers pos := by
    funext token
    exact (Bool.decide_and ..).symm
  have hcount := countP_covers_placeFrom pos offset
    ((scan .start state line).spans.flatMap (Span.split scope))
  rw [spelled_split_scan] at hcount
  rw [Lexed.rows, List.countP_append, List.countP_map, htoken]
  exact hcount

/-- The rows of lines cover no position before them. -/
theorem countP_covers_dumpRows_of_lt (scope : LinkScope) {pos offset : Nat} (h : pos < offset)
    (number : Nat) (state : ResumeState) (lines : List Text) :
    (dumpRows scope number offset state lines).countP (Row.covers pos) = 0 := by
  induction lines generalizing number offset state with
  | nil => rfl
  | cons line lines ih =>
    rw [dumpRows, List.countP_append, countP_covers_rows, if_neg (by omega),
      ih (Nat.lt_add_right _ h)]

/-- Of the rows of a document, none covers a trimmed position and one covers each other position. -/
theorem countP_covers_dumpRows (scope : LinkScope) (number offset : Nat) (state : ResumeState)
    (document : Text) {pos : Nat} (hpos : pos < byteLength document) :
    let count := (dumpRows scope number offset state (terminatedLines document)).countP
      (Row.covers (offset + pos))
    (IsTrimmed document pos → count = 0) ∧ (¬IsTrimmed document pos → count = 1) := by
  induction hlines : terminatedLines document generalizing document number offset state pos with
  | nil =>
    rw [terminatedLines_eq_nil.1 hlines] at hpos
    cases hpos
  | cons line lines ih =>
    have hne : document ≠ [] := by
      rintro rfl
      cases hlines
    obtain ⟨body, tail, rest, rfl, hbody, htail, hfirst⟩ := exists_line hne
    obtain ⟨rfl, rfl⟩ := List.cons_eq_cons.1 (hfirst.symm.trans hlines)
    rw [dumpRows, List.countP_append, countP_covers_rows, trimTerminators_append hbody htail]
    by_cases hline : pos < byteLength (body ++ tail)
    · -- The position is within the line: within its body, or within its end.
      rw [countP_covers_dumpRows_of_lt scope (Nat.add_lt_add_left hline offset), List.append_assoc]
      by_cases hwithin : pos < byteLength body
      · have hkept : ¬IsTrimmed (body ++ (tail ++ rest)) pos := hbody.not_isTrimmed hwithin
        simp [hkept, hwithin]
      · obtain ⟨left, rfl⟩ := Nat.exists_eq_add_of_le (Nat.le_of_not_lt hwithin)
        rw [byteLength_append] at hline
        have htrimmed : IsTrimmed (body ++ (tail ++ rest)) (byteLength body + left) :=
          (standsAt_append body).2 (htail.isTrimmed (Nat.lt_of_add_lt_add_left hline))
        rw [if_neg (by omega)]
        exact ⟨fun _ => rfl, fun hkept => absurd htrimmed hkept⟩
    · obtain ⟨left, rfl⟩ := Nat.exists_eq_add_of_le (Nat.le_of_not_lt hline)
      rw [byteLength_append (body ++ tail)] at hpos
      have hrest := ih (number + 1) (offset + byteLength (body ++ tail))
        (tokenize scope body offset state).finish rest (Nat.lt_of_add_lt_add_left hpos) rfl
      rw [if_neg (by rw [byteLength_append]; omega), Nat.zero_add, ← Nat.add_assoc]
      rwa [IsTrimmed, standsAt_append]

/-! ## Texts of rows -/

/-- A slice of a text is one of the text with more after it. -/
theorem slice?_append {text part : Text} {start stop : Nat} (h : slice? text start stop = some part)
    (more : Text) : slice? (text ++ more) start stop = some part := by
  obtain ⟨head, rest, rfl, hstart, hstop⟩ := slice?_eq_some.1 h
  exact slice?_eq_some.2 ⟨head, rest ++ more, List.append_assoc .., hstart, hstop⟩

/-- The rows of lines after a head show what stands at their offsets. -/
theorem slice?_of_mem_dumpRows {scope : LinkScope} {number : Nat} {head : Text}
    {state : ResumeState} {lines : List Text} {line offset : Nat} {kind text : Text}
    {flags : Option Text}
    (h : .token line offset kind text flags ∈
      dumpRows scope number (byteLength head) state lines) :
    slice? (head ++ lines.flatten) offset (offset + byteLength text) = some text := by
  induction lines generalizing number head state with
  | nil => cases h
  | cons first lines ih =>
    rw [dumpRows, Lexed.rows, List.mem_append, List.mem_append, List.mem_singleton] at h
    rcases h with (htoken | hend) | hmore
    · obtain ⟨token, hmem, heq⟩ := List.mem_map.1 htoken
      cases heq
      have hplaced : token ∈ placeFrom (0 + byteLength head)
          ((scan .start state (trimTerminators first)).spans.flatMap (Span.split scope)) := by
        rw [Nat.zero_add]
        exact hmem
      have hslice := (slice?_of_mem_placeFrom head hplaced).2
      rw [spelled_split_scan] at hslice
      obtain ⟨tail, hfirst⟩ := exists_trimmed first
      have hwhole : head ++ (first :: lines).flatten =
          head ++ trimTerminators first ++ (tail ++ lines.flatten) := by
        rw [List.flatten_cons, List.append_assoc, ← List.append_assoc (trimTerminators first),
          ← hfirst]
      rw [hwhole]
      exact slice?_append hslice _
    · cases hend
    · rw [← byteLength_append] at hmore
      rw [List.flatten_cons, ← List.append_assoc]
      exact ih hmore

/-! ## Dumps -/

/-- A dump shows every position of its document in exactly one row, with the text that stands there,
apart from the trimmed characters, which are in none: the line feeds, and the carriage returns of
the runs that end at a line feed or with the document. -/
theorem dump_covers (options : DumpOptions) (document : Text) :
    ∃ rows, (readRows? (dump options document) = some rows ∧
        writeRows rows = dump options document) ∧
      (∀ line offset kind text flags, .token line offset kind text flags ∈ rows →
        slice? document offset (offset + byteLength text) = some text) ∧
      ∀ pos < byteLength document,
        (IsTrimmed document pos → rows.countP (Row.covers pos) = 0) ∧
          (¬IsTrimmed document pos → rows.countP (Row.covers pos) = 1) := by
  refine ⟨_, ⟨readRows?_dump options document, (dumpLines_eq ..).symm⟩, ?_, ?_⟩
  · intro line offset kind text flags hmem
    have hslice : slice? ([] ++ (terminatedLines document).flatten) offset
        (offset + byteLength text) = some text := slice?_of_mem_dumpRows hmem
    rwa [flatten_terminatedLines] at hslice
  · intro pos hpos
    have hcount := countP_covers_dumpRows options.scope 1 0 options.start document hpos
    rwa [Nat.zero_add] at hcount

/-- A carriage return that is not directly before a line feed, and in no row. -/
theorem exists_carriageReturn_in_no_row :
    let document := "a\r\r\n".toList
    ∃ rows pos, readRows? (dump .standard document) = some rows ∧ pos < byteLength document ∧
      ¬IsTerminator document pos ∧ rows.countP (Row.covers pos) = 0 := by
  intro document
  have hstands : ∀ p, StandsAt p document 1 ↔ p '\r' ['\r', '\n'] := by
    intro p
    have hdocument : document = ['a'] ++ '\r' :: ['\r', '\n'] := by decide
    have hpos : 1 = byteLength ['a'] + 0 := rfl
    rw [hdocument, hpos, standsAt_append, standsAt_zero]
  have htrimmed : IsTrimmed document 1 := (hstands _).2 (by decide)
  refine ⟨_, 1, readRows?_dump .standard document, by decide, ?_, ?_⟩
  · rw [IsTerminator, hstands]
    decide
  · exact (countP_covers_dumpRows .comments 1 0 .initial document (by decide)).1 htrimmed

end LineLexer
