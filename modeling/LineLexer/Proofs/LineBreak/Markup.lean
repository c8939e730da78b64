import LineLexer.Proofs.LineBreak.Measure
import LineLexer.Proofs.LineBreak.Scan
import LineLexer.Proofs.Scan.AfterOperator
import LineLexer.Proofs.Scan.Language

/-!
# Markup across a line break

In markup every move joins: what it takes of a line followed by another one is the same, or is all
of the line in one piece that goes on behind the line break (`joins_step`), and every state of
markup bridges the break (`bridges_of_isHost`). So two lines of markup are lexed as one text with a
line break between them, but for what the second line is not told of the first: that its last solid
span is an operator, whose value the second line starts with (`markup_line_break_iff`).
-/

namespace LineLexer

namespace Markup

/-! ## Moves -/

section

variable {past : Recall} {next : Text}

/-- A piece through a delimiter joins. -/
theorem joins_through {delimiter : Text} (hne : delimiter ≠ []) (hdelimiter : '\n' ∉ delimiter)
    (closed : MarkupState) {kind : Kind} {stay : MarkupState} {lead : Nat} {text body : Text}
    (htext : text.length = lead + body.length)
    (hstay : ∀ past, step past (.markup stay) '\n' next =
      measured (widthThrough? delimiter) kind .markup (.markup closed) (.markup stay) 0
        ('\n' :: next)) :
    Joins next text
      (measured (widthThrough? delimiter) kind .markup (.markup closed) (.markup stay) lead body)
      (measured (widthThrough? delimiter) kind .markup (.markup closed) (.markup stay) lead
        (body ++ '\n' :: next)) :=
  joins_measured (goesOver_widthThrough? hne hdelimiter next) (by decide) htext hstay

/-- Blanks join. -/
theorem joins_blanks {c : Char} {rest : Text} {stay : MarkupState}
    (hstay : ∀ past, step past (.markup stay) '\n' next = blanks next stay) :
    Joins next (c :: rest) (blanks rest stay) (blanks (rest ++ '\n' :: next) stay) :=
  .blanks (by decide) hstay

/-- The start of a tag joins as it is. -/
theorem joins_tagStart {text : Text} {bracket : Nat} {rest : Text} (stay : Text → MarkupState)
    (h : text.length = bracket + rest.length) :
    Joins next text
      (tagStart bracket (rest.takeWhile isTagNameChar) (stay (rest.takeWhile isTagNameChar)))
      (tagStart bracket ((rest ++ '\n' :: next).takeWhile isTagNameChar)
        (stay ((rest ++ '\n' :: next).takeWhile isTagNameChar))) := by
  rw [takeWhile_join (by decide)]
  refine .same rfl ?_
  have := runLength_le isTagNameChar rest
  rw [runLength] at this
  simp only [tagStart, Move.width_pair, piece]
  omega

/-! ## All moves -/

/-- What a bracket opens joins. -/
theorem joins_opening {rest : Text} :
    Joins next ('<' :: rest) (opening rest) (opening (rest ++ '\n' :: next)) := by
  have hcomment : ∀ {lead body}, ('<' :: rest).length = lead + body.length →
      Joins next ('<' :: rest) (comment lead body) (comment lead (body ++ '\n' :: next)) :=
    fun h => joins_through (by decide) (by decide) .content h fun past => rfl
  have hdoctype : ∀ {lead body}, ('<' :: rest).length = lead + body.length →
      Joins next ('<' :: rest) (doctype lead body) (doctype lead (body ++ '\n' :: next)) :=
    fun h => joins_through (by decide) (by decide) .content h fun past => rfl
  have hinstruction : ∀ {lead body}, ('<' :: rest).length = lead + body.length →
      Joins next ('<' :: rest) (instruction lead body) (instruction lead (body ++ '\n' :: next)) :=
    fun h => joins_through (by decide) (by decide) .content h fun past => rfl
  -- No test of what follows the bracket tells the end of the line from a line break, so both take
  -- the same branch.
  unfold opening
  simp only [isPrefixOf_join "!--".toList (by decide),
    head?_join_eq_some (show '!' ≠ '\n' by decide), head?_join_eq_some (show '?' ≠ '\n' by decide),
    head?_join_eq_some (show '/' ≠ '\n' by decide), any_head?_join (p := isNameStart) (by decide)]
  split
  next h =>
    obtain ⟨body, rfl⟩ := List.isPrefixOf_iff_prefix.1 h
    exact hcomment (by simp; omega)
  split
  next h =>
    obtain ⟨body, rfl⟩ := List.head?_eq_some_iff.1 h
    exact hdoctype (by simp; omega)
  split
  next h =>
    obtain ⟨body, rfl⟩ := List.head?_eq_some_iff.1 h
    exact hinstruction (by simp; omega)
  have hslash : rest.head? = some '/' ∧
      ((rest ++ '\n' :: next).drop 1).head?.any isNameStart = true ↔
        rest.head? = some '/' ∧ (rest.drop 1).head?.any isNameStart = true := by
    refine and_congr_right fun h => ?_
    obtain ⟨tail, rfl⟩ := List.head?_eq_some_iff.1 h
    exact Bool.eq_iff_iff.1 (any_head?_join (p := isNameStart) (by decide))
  simp only [hslash]
  split
  next h =>
    obtain ⟨tail, rfl⟩ := List.head?_eq_some_iff.1 h.1
    exact joins_tagStart (fun _ => .endTag) (by simp; omega)
  split
  · exact joins_tagStart (fun name => .startTag (.ofName name)) (by simp; omega)
  · exact .run (by decide)

/-- An attribute value joins. -/
theorem joins_attributeValue {quote : Quote} {tag : TagKind} {lead : Nat} {text body : Text}
    (h : text.length = lead + body.length) :
    Joins next text (attributeValue quote tag lead body)
      (attributeValue quote tag lead (body ++ '\n' :: next)) := by
  have hquote : '\n' ∉ [quote.char] := by cases quote <;> decide
  exact joins_through (by simp) hquote (.startTag tag) h fun past => rfl

/-- Every move of markup joins. -/
theorem joins_step (past : Recall) (state : MarkupState) (c : Char) (rest next : Text) :
    Joins next (c :: rest) (step past (.markup state) c rest)
      (step past (.markup state) c (rest ++ '\n' :: next)) := by
  have hchar : ∀ {kind stay}, Joins next (c :: rest) (one kind 1 stay) (one kind 1 stay) :=
    .chars (by simp)
  have hbreaksOff : ∀ {stay : ResumeState}, Joins next (c :: rest) ⟨[], stay⟩ ⟨[], stay⟩ :=
    .same rfl (Nat.zero_le _)
  cases state with
  | content =>
    simp only [step, move, content]
    split
    · exact joins_blanks fun past => rfl
    split
    next hc =>
      subst hc
      exact joins_opening
    split
    · rw [entityWidth?_join]
      split
      next width hw => exact .chars (entityWidth?_le hw)
      · exact .run (by decide)
    · exact .run (by decide)
  | startTag tag =>
    simp only [step, move, startTag, head?_join_eq_some (show '>' ≠ '\n' by decide)]
    split
    · exact joins_blanks fun past => rfl
    split
    next hslash =>
      -- A line break is no bracket, so both characters are on the first line.
      simp only [Bool.and_eq_true, decide_eq_true_eq] at hslash
      obtain ⟨tail, rfl⟩ := List.head?_eq_some_iff.1 hslash.2
      exact .chars (by simp)
    split
    · exact .same rfl (by simp [piece])
    split
    · exact hchar
    split
    · exact hbreaksOff
    split
    · exact joins_attributeValue (by simp; omega)
    · exact .run (by decide)
  | endTag =>
    simp only [step, move, endTag]
    split
    · exact joins_blanks fun past => rfl
    split
    · exact hchar
    split
    · exact hbreaksOff
    · exact .run (by decide)
  | attributeValue quote tag => exact joins_attributeValue (by simp)
  | comment => exact joins_through (by decide) (by decide) .content (by simp) fun past => rfl
  | doctype => exact joins_through (by decide) (by decide) .content (by simp) fun past => rfl
  | instruction => exact joins_through (by decide) (by decide) .content (by simp) fun past => rfl

end

/-! ## The line break itself -/

/-- A state in which a piece through a delimiter is open bridges the line break. -/
theorem bridges_of_through {delimiter : Text} (hne : delimiter ≠ []) (hdelimiter : '\n' ∉ delimiter)
    (closed : MarkupState) {kind : Kind} {stay : MarkupState}
    (hstep : ∀ past c rest, step past (.markup stay) c rest =
      measured (widthThrough? delimiter) kind .markup (.markup closed) (.markup stay) 0
        (c :: rest)) (past : Recall) (next : Text) : Bridges past (.markup stay) next := by
  refine bridges_of_measured (goesOver_widthThrough? hne hdelimiter next) (by decide)
    (.inr fun hwidth => ?_) hstep past
  exact Nat.lt_of_lt_of_le (List.length_pos_iff.2 hne) (length_le_of_widthThrough? hwidth)

/-- A state of markup, and the start of the content of an element. -/
def IsHost (state : ResumeState) : Prop :=
  state.language = .markup ∨ ∃ tag, state = .ofElement tag

/-- Host states bridge the line break. -/
theorem bridges_of_isHost {state : ResumeState} (h : IsHost state) (past : Recall) (next : Text) :
    Bridges past state next := by
  have hblanks : ∀ {stay : MarkupState}, (∀ past c rest, isBlank c = true →
      step past (.markup stay) c rest = blanks rest stay) → Bridges past (.markup stay) next :=
    fun hstep => bridges_of_blanks .markup hstep past next
  rcases h with hmarkup | ⟨tag, rfl⟩
  · cases state with
    | style state => cases hmarkup
    | script state => cases hmarkup
    | markup state =>
      cases state with
      | content => exact hblanks fun past c rest hc => by simp [step, move, content, hc]
      | startTag tag => exact hblanks fun past c rest hc => by simp [step, move, startTag, hc]
      | endTag => exact hblanks fun past c rest hc => by simp [step, move, endTag, hc]
      | attributeValue quote tag =>
        have hquote : '\n' ∉ [quote.char] := by cases quote <;> decide
        exact bridges_of_through (by simp) hquote (.startTag tag)
          (fun past c rest => rfl) past next
      | comment =>
        exact bridges_of_through (by decide) (by decide) .content (fun past c rest => rfl) past next
      | doctype =>
        exact bridges_of_through (by decide) (by decide) .content (fun past c rest => rfl) past next
      | instruction =>
        exact bridges_of_through (by decide) (by decide) .content (fun past c rest => rfl) past next
  · cases tag with
    | plain => exact hblanks fun past c rest hc => by simp [step, move, content, hc]
    | script =>
      exact bridges_of_blanks .script
        (fun past c rest hc => by simp [step, ResumeState.ofElement, Script.move, Script.code, hc,
          Script.one, Script.piece]) past next
    | style =>
      exact bridges_of_blanks .style
        (fun past c rest hc => by simp [step, ResumeState.ofElement, Style.move, Style.contextMove,
          hc, Style.code, Style.one, Style.piece]) past next

/-- A move that takes something and stays in a language other than markup cuts off a span that is
not of markup. -/
theorem not_forall_markup {move : Move} {language : Language} (hstays : move.StaysIn language)
    (hl : language ≠ .markup) (hwidth : 0 < move.width) (c : Char) (rest : Text) :
    ¬∀ span ∈ carve move.pieces (c :: rest), span.language = .markup := by
  intro hfits
  obtain ⟨span, hmem, hlanguage⟩ := hstays.exists_mem_carve hwidth c rest
  exact hl (hlanguage.symm.trans (hfits span hmem))

/-- From a host state, a move whose spans are all of markup joins and leads to a host state. -/
theorem joins_of_isHost {past : Recall} {state : ResumeState} {c : Char} {rest next : Text}
    (h : IsHost state)
    (hfits : ∀ span ∈ carve (step past state c rest).pieces (c :: rest),
      span.language = .markup) :
    Joins next (c :: rest) (step past state c rest) (step past state c (rest ++ '\n' :: next)) ∧
      IsHost (step past state c rest).next := by
  cases state with
  | markup state =>
    refine ⟨joins_step past state c rest next, ?_⟩
    rcases move_cases (past.solid == some .operator) state c rest with
      hcontinues | ⟨-, -, -, hmove⟩ | ⟨tag, -, -, hmove⟩
    · exact .inl hcontinues.1
    · simp only [step, hmove]
      exact .inl rfl
    · simp only [step, hmove]
      exact .inr ⟨tag, rfl⟩
  -- Of the content of an element, only the closing tag is of markup.
  | style state =>
    obtain rfl : state = .code .selector := by
      rcases h with h | ⟨tag, h⟩
      · cases h
      · cases tag <;> cases h
        rfl
    rcases Style.move_language (.code .selector) c rest with hstays | ⟨rfl, htag, hmove⟩
    · have hwidth := Style.contextMove_width_pos .selector c rest
      exact absurd hfits (not_forall_markup hstays (by simp) hwidth c rest)
    · -- The tag is there for the joined lines too.
      have hjoined : Style.move (.code .selector) '<' (rest ++ '\n' :: next) =
          closeElement styleTag := by
        have htagJoined : atClosingTag styleTag ('<' :: (rest ++ '\n' :: next)) = true :=
          (atClosingTag_join (by decide) ('<' :: rest) next).trans htag
        simp [Style.move, Style.contextMove, htagJoined, isBlank]
      simp only [step, hmove, hjoined]
      exact ⟨joins_closeElement (by decide) htag next, .inl rfl⟩
  | script state =>
    obtain rfl : state = .code := by
      rcases h with h | ⟨tag, h⟩
      · cases h
      · cases tag <;> cases h
        rfl
    rcases Script.move_language (Script.regexMayFollow past.script) .code c rest with
      hstays | ⟨rfl, htag, hmove⟩
    · exact absurd hfits (not_forall_markup hstays (by simp) (Script.code_width_pos ..) c rest)
    · have hjoined : Script.move (Script.regexMayFollow past.script) .code '<'
          (rest ++ '\n' :: next) = closeElement scriptTag := by
        have htagJoined : atClosingTag scriptTag ('<' :: (rest ++ '\n' :: next)) = true :=
          (atClosingTag_join (by decide) ('<' :: rest) next).trans htag
        exact Script.move_of_atClosingTag _ htagJoined
      simp only [step, hmove, hjoined]
      exact ⟨joins_closeElement (by decide) htag next, .inl rfl⟩

end Markup

/-! ## Two lines of markup -/

/-- Tokens that are not blank. -/
def Token.isSolid : Token → Bool :=
  Span.isSolid ∘ Token.span

/-- The first line ends in a start tag with an operator as its last solid token, and the second one
has an attribute as its first. -/
def CutsAttribute (first second : Lexed) : Prop :=
  (∃ tag, first.finish = .markup (.startTag tag)) ∧
    (first.tokens.filter Token.isSolid).getLast?.map Token.kind = some .operator ∧
    (second.tokens.find? Token.isSolid).map Token.kind = some .markupTagAttribute

/-- Lines that are spliced with a word as a value do not agree where the word is an attribute. -/
theorem not_agreeOn_of_word {line blanks others joined : List Span} {word : Span}
    (h : Spliced line (blanks ++ { word with kind := .markupTagAttributeValue } :: others) joined)
    (htext : word.text ≠ []) (hkind : word.kind = .markupTagAttribute) (base : Nat)
    (more : List Span) :
    ¬AgreeOn (base + byteLength (spelled line) + 1)
      (base + byteLength (spelled line) + 1 + byteLength (spelled (blanks ++ word :: more)))
      (placeFrom base joined)
      (placeFrom (base + byteLength (spelled line) + 1) (blanks ++ word :: more)) := by
  intro hagree
  have hvalues := h.agreeOn_second base
  generalize base + byteLength (spelled line) + 1 = start at hagree hvalues
  have hpos : 0 < byteLength word.text :=
    Nat.pos_of_ne_zero fun h0 => htext (byteLength_eq_zero.1 h0)
  obtain ⟨hmem, hcovers⟩ := exists_place_covers blanks word more htext start
  obtain ⟨hmemValue, hcoversValue⟩ := exists_place_covers blanks
    { word with kind := .markupTagAttributeValue } others htext start
  -- The token of the joined line at the word has the labels of both.
  obtain ⟨token, htoken, other, hother, htokenCovers, hotherCovers, hlabel⟩ :=
    hagree.covers (start + byteLength (spelled blanks)) (Nat.le_add_right ..) (by
      simp only [spelled_append, spelled_cons, byteLength_append]
      omega)
  obtain ⟨token', htoken', value, hvalue, htokenCovers', hvalueCovers, hlabel'⟩ :=
    hvalues.covers (start + byteLength (spelled blanks)) (Nat.le_add_right ..) (by
      simp only [spelled_append, spelled_cons, byteLength_append]
      omega)
  obtain rfl := eq_of_covers htoken htoken' htokenCovers htokenCovers'
  obtain rfl := eq_of_covers hother hmem hotherCovers hcovers
  obtain rfl := eq_of_covers hvalue hmemValue hvalueCovers hcoversValue
  have hkinds : Kind.markupTagAttribute = .markupTagAttributeValue := by
    have := congrArg Prod.fst (hlabel.symm.trans hlabel')
    rwa [Token.label, Token.label, Span.place, Span.place, hkind] at this
  cases hkinds

/-- What is recalled after a line of markup answers on operators what the last solid span says, and
nothing on code. -/
theorem recall_markup {spans : List Span} (h : ∀ span ∈ spans, span.language = .markup) :
    (spans.foldl Recall.note .start).solid = (spans.filter Span.isSolid).getLast?.map Span.kind ∧
      (spans.foldl Recall.note .start).script = Recall.start.script := by
  refine ⟨by rw [Recall.solid_foldl_note]; exact Option.or_none, ?_⟩
  exact Recall.script_foldl_note_of_forall (fun span hspan => by simp [Span.isCode, h span hspan]) _

/-- Two lines of markup are lexed as one text with a line break between them, unless an attribute is
cut between its equals sign and its value. -/
theorem markup_line_break_iff (base : Nat) (start : MarkupState) (line next : Text)
    (hline : ∀ token ∈ (tokenize .off line base (.markup start)).tokens,
      token.language = .markup) :
    let first := tokenize .off line base (.markup start)
    let second := tokenize .off next (base + byteLength line + 1) first.finish
    let joined := tokenize .off (line ++ '\n' :: next) base (.markup start)
    joined.IsJoin first second base line next ↔ ¬CutsAttribute first second := by
  intro first second joined
  have hspans : ∀ span ∈ (scan .start (.markup start) line).spans, span.language = .markup := by
    intro span hspan
    rw [tokenize_off] at hline
    rw [← map_span_placeFrom base (scan .start (.markup start) line).spans] at hspan
    obtain ⟨token, htoken, rfl⟩ := List.mem_map.1 hspan
    exact hline token htoken
  obtain ⟨hspliced, hfinish⟩ := spliced_scan Markup.IsHost (fun span => span.language = .markup)
    (fun _ _ _ _ => Markup.joins_of_isHost) (fun past _ h => Markup.bridges_of_isHost h past next)
    .start (.markup start) line (.inl rfl) hspans
  obtain ⟨hsolid, hscript⟩ := recall_markup hspans
  have hspelled := spelled_scan .start (.markup start) line
  simp only [first, second, joined, tokenize_off]
  generalize scan .start (.markup start) line = scanned at *
  generalize scanned.spans.foldl Recall.note .start = past at *
  simp only [CutsAttribute, Token.isSolid, kind_find?_placeFrom, kind_getLast?_filter_placeFrom,
    ← hsolid]
  by_cases hoperator : past.solid = some .operator
  · by_cases htag : ∃ tag, scanned.finish = .markup (.startTag tag)
    · have hstart : Recall.start.solid ≠ some .operator := by decide
      obtain ⟨tag, hfinishTag⟩ := htag
      rw [hfinishTag] at hspliced hfinish ⊢
      rcases scan_startTag_cases hscript hoperator hstart tag next with
        ⟨hsame, hfirst⟩ | ⟨blanks, word, more, others, hblanks, htext, hkind, hnext, hafter⟩
      · refine iff_of_true ?_ fun hcut => ?_
        · rw [hsame] at hspliced hfinish
          simpa only [hspelled, spelled_scan, hfinishTag] using hspliced.isJoin hfinish base
        · obtain ⟨word, hword, hkind⟩ := Option.map_eq_some_iff.1 hcut.2.2
          exact hfirst word hword hkind
      · -- The two ways disagree on the word that the second line starts with.
        refine iff_of_false (fun hjoins => ?_) fun hcut => hcut ⟨⟨tag, rfl⟩, hoperator, ?_⟩
        · rw [hafter] at hspliced
          refine not_agreeOn_of_word hspliced htext hkind base more ?_
          rw [← hnext, hspelled, spelled_scan]
          exact hjoins.second
        · have hnone : blanks.find? Span.isSolid = none :=
            List.find?_eq_none.2 fun blank hblank => by simp [hblanks blank hblank]
          have hsolidWord : word.isSolid = true := by simp [Span.isSolid, hkind]
          rw [hnext, List.find?_append, hnone, List.find?_cons_of_pos hsolidWord]
          exact congrArg some hkind
    · -- Only start tags ask for an operator.
      refine iff_of_true ?_ fun hcut => htag hcut.1
      rw [scan_eq_outside_tags past _ next .start hscript fun tag h => htag ⟨tag, h⟩]
        at hspliced hfinish
      simpa only [hspelled, spelled_scan] using hspliced.isJoin hfinish base
  · -- Without an operator at its end, the first line leaves nothing to recall.
    refine iff_of_true ?_ fun hcut => hoperator hcut.2.1
    have halike : past.Alike .start := ⟨by simp [hoperator, Recall.start], by rw [hscript]⟩
    rw [scan_congr past _ next .start halike] at hspliced hfinish
    simpa only [hspelled, spelled_scan] using hspliced.isJoin hfinish base

/-- An attribute whose quoted value starts on the second line. -/
theorem isJoin_of_quote :
    let line := "<a b=".toList
    let next := "'c' d".toList
    let first := tokenize .off line 0 .initial
    (∀ token ∈ first.tokens, token.language = .markup) ∧
      (tokenize .off (line ++ '\n' :: next) 0 .initial).IsJoin first
        (tokenize .off next 6 first.finish) 0 line next := by
  intro line next first
  have hline : ∀ token ∈ first.tokens, token.language = .markup := by decide +kernel
  have hcut : ¬CutsAttribute first (tokenize .off next 6 first.finish) := by
    rintro ⟨-, -, hfirst⟩
    revert hfirst
    decide +kernel
  exact ⟨hline, (markup_line_break_iff 0 .content line next hline).2 hcut⟩

/-- A value without quotes is an attribute on a line of its own. -/
theorem exists_not_isJoin : ∃ (base : Nat) (start : MarkupState) (line next : Text),
    let first := tokenize .off line base (.markup start)
    let second := tokenize .off next (base + byteLength line + 1) first.finish
    let joined := tokenize .off (line ++ '\n' :: next) base (.markup start)
    (∀ token ∈ first.tokens ++ second.tokens, token.language = .markup) ∧
      second.finish.language = .markup ∧ ¬joined.IsJoin first second base line next := by
  refine ⟨0, .content, "<a b=".toList, "c".toList, ?_⟩
  intro first second joined
  refine ⟨by decide +kernel, by decide +kernel, fun hjoins => ?_⟩
  have hvalue : ∀ token ∈ joined.tokens, token.Covers 6 →
      token.kind = .markupTagAttributeValue := by
    decide +kernel
  have hattribute : ∀ token ∈ second.tokens, token.kind = .markupTagAttribute := by
    decide +kernel
  obtain ⟨token, htoken, other, hother, hcovers, -, hlabel⟩ :=
    hjoins.second.covers 6 (by decide) (by decide)
  have hkinds : Kind.markupTagAttributeValue = .markupTagAttribute :=
    (hvalue token htoken hcovers).symm.trans
      ((congrArg Prod.fst hlabel).trans (hattribute other hother))
  cases hkinds

end LineLexer
