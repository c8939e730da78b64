import LineLexer.Proofs.Document
import LineLexer.Proofs.Embedding.Blocks
import LineLexer.Proofs.Grammar.Language
import LineLexer.Proofs.Link.Split
import LineLexer.Proofs.Span.Carve
import LineLexer.Proofs.Text.Fold

/-!
# Embedded languages stand between their tags

In what a document shows, every block of a style sheet or script stands between the start tag of
its element, whose closing bracket comes directly before the block, and the closing tag of the same
element, which comes directly after it, if anything does (`shown_bracketed`).

What a move shows is one of four outcomes (`shows_step`): an embedded language is entered only at
the closing bracket of a start tag and left only at the closing tag. The outcomes preserve `Embeds`,
which is carried through the text of a line (`embeds_scan`) and through the lines
(`wellEmbedded_shown`).
-/

namespace LineLexer

/-! ## The closing tag -/

/-- At a closing tag, its bracket and its name are carved. -/
theorem carve_closeElement {name text : Text} (hname : name ≠ [])
    (h : atClosingTag ('<' :: '/' :: name) text = true) :
    ∃ first, foldCase first = foldCase name ∧
      carve (closeElement ('<' :: '/' :: name)).pieces text =
        [⟨.markupTagDelimiter, .markup, "</".toList, .empty⟩,
          ⟨.markupTagName, .markup, first, .empty⟩] := by
  rw [atClosingTag, Bool.and_eq_true, startsWithFolded_iff] at h
  obtain ⟨⟨head, rest, rfl, hlen, hfold⟩, -⟩ := h
  obtain ⟨c, d, first, rfl⟩ : ∃ c d first, head = c :: d :: first := by
    match head, hlen with
    | c :: d :: first, _ => exact ⟨c, d, first, rfl⟩
  simp only [foldCase, List.map_cons, List.cons.injEq] at hfold
  -- Neither character of the bracket has a capital form, so both are spelled as in the tag.
  obtain rfl : c = '<' := eq_of_toLower_eq hfold.1 (by decide)
  obtain rfl : d = '/' := eq_of_toLower_eq hfold.2.1 (by decide)
  have hlength : first.length = name.length := by simpa using hlen
  have hpos : 0 < name.length := List.length_pos_iff.2 hname
  refine ⟨first, hfold.2.2, ?_⟩
  rw [closeElement, carve_pair (by decide) (by simpa using hpos) (by simp; omega)]
  simp [← hlength]

/-- The element whose content is in an embedded language has a name. -/
theorem Language.element_ne_nil {language : Language} (hl : language ≠ .markup) :
    language.element ≠ [] := by
  cases language with
  | markup => exact absurd rfl hl
  | style => decide
  | script => decide

/-- A closing tag leaves the language of its element. -/
theorem shows_closeElement {scope : LinkScope} {state : ResumeState} {text : Text}
    (hstate : state.language ≠ .markup)
    (h : atClosingTag ('<' :: '/' :: state.language.element) text = true) :
    Shows state
      ((carve (closeElement ('<' :: '/' :: state.language.element)).pieces text).flatMap
        (Span.painted scope)) (.markup .endTag) := by
  have hne : state.language.element ≠ [] := Language.element_ne_nil hstate
  obtain ⟨first, hfold, hcarve⟩ := carve_closeElement hne h
  -- The names of elements are in small letters, so the name in the text folds to them.
  have hlower : foldCase state.language.element = state.language.element := by
    cases state.language <;> decide
  have hfirst : first ≠ [] := by
    rintro rfl
    exact hne (by rw [← hlower, ← hfold]; rfl)
  rw [hcarve]
  simp only [List.flatMap_cons, List.flatMap_nil, List.append_nil]
  rw [Span.painted_eq_singleton (by simp) (by decide), Span.painted_eq_singleton (by simp) hfirst]
  exact .leave hstate ⟨rfl, rfl, rfl⟩ ⟨rfl, rfl, by rw [hfold, hlower]⟩

/-! ## What a move shows -/

/-- Spans to paint have their languages from the pieces of the move. -/
theorem language_of_mem_painted {scope : LinkScope} {move : Move} {language : Language}
    (h : move.IsOf language) {text : Text} {span : Span}
    (hs : span ∈ (carve move.pieces text).flatMap (Span.painted scope)) :
    span.language = language := by
  obtain ⟨whole, hwhole, hpart⟩ := List.mem_flatMap.1 hs
  obtain ⟨piece, hpiece, -, hlang, -⟩ := exists_piece_of_mem_carve hwhole
  rw [(Span.kind_of_mem_painted hpart).2, hlang, h.language_eq piece hpiece]

/-- A move that stays in an embedded language shows spans of it. -/
theorem shows_of_staysIn {scope : LinkScope} {state : ResumeState} {move : Move} {text : Text}
    (hstate : state.language ≠ .markup) (h : move.StaysIn state.language) :
    Shows state ((carve move.pieces text).flatMap (Span.painted scope)) move.next := by
  refine .within (fun span => language_of_mem_painted h.toIsOf) h.next_language (.inl ?_)
  have hnext : move.next.language ≠ .markup := h.next_language ▸ hstate
  cases hn : move.next with
  | markup state => rw [hn] at hnext; exact absurd rfl hnext
  | style state => rfl
  | script state => rfl

namespace Markup

/-- A move goes on in markup, and in a start tag only in the one of `state` and without a name. -/
def Continues (state : MarkupState) (move : Move) : Prop :=
  move.next.language = .markup ∧ (move.next.pendingTag = .plain ∨
    move.next.pendingTag = (ResumeState.markup state).pendingTag ∧
      ∀ piece ∈ move.pieces, piece.kind ≠ .markupTagName)

/-- A move that goes on outside start tags goes on. -/
theorem continues_of_plain {state : MarkupState} {move : Move}
    (hl : move.next.language = .markup) (hp : move.next.pendingTag = .plain) :
    Continues state move :=
  ⟨hl, .inl hp⟩

/-- One piece other than a name goes on in a start tag. -/
theorem continues_one {state next : MarkupState} {kind : Kind} {width : Nat}
    (hk : kind ≠ .markupTagName)
    (hp : (ResumeState.markup next).pendingTag = (ResumeState.markup state).pendingTag) :
    Continues state (one kind width next) :=
  ⟨rfl, .inr ⟨hp, by simpa [one, piece] using hk⟩⟩

/-- A construct with a delimiter goes on outside start tags. -/
theorem continues_delimited {state stay : MarkupState} {delimiter : Text} {kind : Kind} {lead : Nat}
    {body : Text} (hs : (ResumeState.markup stay).pendingTag = .plain) :
    Continues state (delimited delimiter kind stay lead body) := by
  unfold delimited
  split
  · exact continues_of_plain rfl rfl
  · exact continues_of_plain rfl hs

/-- An attribute value goes on in its start tag. -/
theorem continues_attributeValue {state : MarkupState} {quote : Quote} {tag : TagKind} {lead : Nat}
    {body : Text} (hs : (ResumeState.markup state).pendingTag = tag) :
    Continues state (attributeValue quote tag lead body) := by
  unfold attributeValue
  split
  · exact continues_one (by decide) hs.symm
  · exact continues_one (by decide) hs.symm

/-- What a bracket opens is a start tag, or it goes on. -/
theorem opening_cases (rest : Text) :
    Continues .content (opening rest) ∨ rest.head?.any isNameStart = true ∧
      opening rest = tagStart 1 (rest.takeWhile isTagNameChar)
        (.startTag (.ofName (rest.takeWhile isTagNameChar))) := by
  unfold opening
  split
  · exact .inl (continues_delimited rfl)
  split
  · exact .inl (continues_delimited rfl)
  split
  · exact .inl (continues_delimited rfl)
  split
  · exact .inl (continues_of_plain rfl rfl)
  split
  next h => exact .inr ⟨h, rfl⟩
  · exact .inl (continues_of_plain rfl rfl)

/-- A move of markup goes on; or it starts a tag; or it ends a start tag and enters the element. -/
theorem move_cases (afterOperator : Bool) (state : MarkupState) (c : Char) (rest : Text) :
    Continues state (move afterOperator state c rest) ∨
      (state = .content ∧ c = '<' ∧ rest.head?.any isNameStart = true ∧
        move afterOperator state c rest = tagStart 1 (rest.takeWhile isTagNameChar)
          (.startTag (.ofName (rest.takeWhile isTagNameChar)))) ∨
      ∃ tag, state = .startTag tag ∧ c = '>' ∧
        move afterOperator state c rest =
          ⟨[piece .markupTagDelimiter 1], .ofElement tag⟩ := by
  cases state with
  | content =>
    simp only [move, content]
    split
    · exact .inl (continues_of_plain rfl rfl)
    split
    next hc =>
      rcases opening_cases rest with h | ⟨hname, h⟩
      · exact .inl h
      · exact .inr (.inl ⟨trivial, hc, hname, h⟩)
    repeat' split
    all_goals exact .inl (continues_of_plain rfl rfl)
  | startTag tag =>
    simp only [move, startTag]
    split
    · exact .inl (continues_one (by decide) rfl)
    split
    · exact .inl (continues_of_plain rfl rfl)
    split
    next hc => exact .inr (.inr ⟨tag, rfl, hc, rfl⟩)
    split
    · exact .inl (continues_one (by decide) rfl)
    split
    -- A bracket breaks the tag off, and nothing of its element is kept.
    · exact .inl (continues_of_plain rfl rfl)
    split
    · exact .inl (continues_attributeValue rfl)
    · exact .inl (continues_one (by split <;> decide) rfl)
  | endTag =>
    simp only [move, endTag]
    repeat' split
    all_goals exact .inl (continues_of_plain rfl rfl)
  | attributeValue quote tag => exact .inl (continues_attributeValue rfl)
  | comment => exact .inl (continues_delimited rfl)
  | doctype => exact .inl (continues_delimited rfl)
  | instruction => exact .inl (continues_delimited rfl)

/-- The start of a tag at a name shows its bracket and its name, which decides the element. -/
theorem shows_tagStart {scope : LinkScope} {state : ResumeState} {rest : Text}
    (hstate : state.language = .markup) (hname : rest.head?.any isNameStart = true) :
    Shows state
      ((carve (tagStart 1 (rest.takeWhile isTagNameChar) (.startTag
        (.ofName (rest.takeWhile isTagNameChar)))).pieces ('<' :: rest)).flatMap
        (Span.painted scope))
      (.markup (.startTag (.ofName (rest.takeWhile isTagNameChar)))) := by
  obtain ⟨d, rest, rfl⟩ : ∃ d tail, rest = d :: tail := by
    cases rest with
    | nil => cases hname
    | cons d tail => exact ⟨d, tail, rfl⟩
  have hd : isTagNameChar d = true := by
    simp only [List.head?_cons, Option.any_some, isNameStart, Bool.or_eq_true] at hname
    rcases hname with halpha | hna
    · simp [isTagNameChar, Char.isAlphanum, halpha]
    · simp [isTagNameChar, hna]
  -- The name takes its first character, so the second piece is carved too.
  generalize hn : (d :: rest).takeWhile isTagNameChar = name
  have hne : name ≠ [] := by
    rw [← hn, List.takeWhile_cons_of_pos hd]
    simp
  have htake : (d :: rest).take name.length = name := by
    rw [← hn]
    exact List.prefix_iff_eq_take.1 (List.takeWhile_prefix _) |>.symm
  rw [tagStart, carve_pair (by decide) (List.length_pos_iff.2 hne) (by simp [piece])]
  simp only [piece, List.take_succ_cons, List.take_zero, List.drop_succ_cons, List.drop_zero,
    htake, List.flatMap_cons, List.flatMap_nil, List.append_nil]
  rw [Span.painted_eq_singleton (by simp) (by simp), Span.painted_eq_singleton (by simp) hne]
  exact .start hstate ⟨rfl, rfl, rfl⟩ rfl rfl

/-- What a move of markup shows. -/
theorem shows_move (scope : LinkScope) (afterOperator : Bool) (state : MarkupState) (c : Char)
    (rest : Text) :
    Shows (.markup state)
      ((carve (move afterOperator state c rest).pieces (c :: rest)).flatMap (Span.painted scope))
      (move afterOperator state c rest).next := by
  rcases move_cases afterOperator state c rest with
    ⟨hlang, htag⟩ | ⟨-, rfl, hname, hmove⟩ | ⟨tag, rfl, rfl, hmove⟩
  · -- A painted part has the kind of its piece, so no name is shown where none is cut.
    refine .within (fun span => language_of_mem_painted (move_isOf ..)) hlang ?_
    refine htag.imp_right fun ⟨hsame, hkinds⟩ => ⟨hsame, fun span hspan => ?_⟩
    obtain ⟨whole, hwhole, hpart⟩ := List.mem_flatMap.1 hspan
    obtain ⟨piece, hpiece, hkind, -, -⟩ := exists_piece_of_mem_carve hwhole
    rw [(Span.kind_of_mem_painted hpart).1, hkind]
    exact hkinds piece hpiece
  · rw [hmove]
    exact shows_tagStart rfl hname
  · rw [hmove, carve_singleton (by decide) (by simp)]
    simp only [piece, List.take_succ_cons, List.take_zero, List.flatMap_cons, List.flatMap_nil,
      List.append_nil]
    rw [Span.painted_eq_singleton (by simp) (by simp)]
    exact .enter rfl ⟨rfl, rfl, rfl⟩

end Markup

/-- What a move shows. -/
theorem shows_step (scope : LinkScope) (past : Recall) (state : ResumeState) (c : Char)
    (rest : Text) :
    Shows state
      ((carve (step past state c rest).pieces (c :: rest)).flatMap (Span.painted scope))
      (step past state c rest).next := by
  cases state with
  | markup state => exact Markup.shows_move ..
  | style state =>
    rcases Style.move_language state c rest with h | ⟨-, htag, hmove⟩
    · exact shows_of_staysIn (by simp [ResumeState.language]) h
    · simp only [step, hmove]
      exact shows_closeElement (by simp [ResumeState.language]) htag
  | script state =>
    rcases Script.move_language (Script.regexMayFollow past.script) state c rest with
      h | ⟨-, htag, hmove⟩
    · exact shows_of_staysIn (by simp [ResumeState.language]) h
    · simp only [step, hmove]
      exact shows_closeElement (by simp [ResumeState.language]) htag

/-! ## What a document shows -/

/-- Scanning a text preserves what the state knows of the spans before it. -/
theorem embeds_scan (scope : LinkScope) (past : Recall) (state : ResumeState) (text : Text) :
    ∀ spans, Embeds spans state →
      Embeds (spans ++ (scan past state text).spans.flatMap (Span.painted scope))
        (scan past state text).finish := by
  fun_induction scan past state text with
  | case1 past state =>
    intro spans h
    rw [List.flatMap_nil, List.append_nil]
    exact h
  | case2 past state c rest move carved more ih =>
    intro spans h
    have hmove := h.shows (shows_step scope past state c rest)
    rw [List.flatMap_append, ← List.append_assoc]
    exact ih _ hmove

/-- What a session shows of lines: the tokens that have a text, without their places. -/
def Session.shown (session : Session) (lines : List Text) : List Span :=
  ((session.tokens lines).filter Token.isPaintable).map Token.span

/-- The tokens of a line that have a text are the painted parts of its spans. -/
theorem map_span_filter_tokenize (scope : LinkScope) (line : Text) (offset : Nat)
    (state : ResumeState) :
    ((tokenize scope line offset state).tokens.filter Token.isPaintable).map Token.span =
      (scan .start state line).spans.flatMap (Span.painted scope) := by
  have hfilter : (fun token => !token.text.isEmpty) ∘ Token.span = Token.isPaintable := rfl
  rw [← hfilter, ← List.filter_map]
  simp only [tokenize, map_span_placeFrom, List.filter_flatMap]
  rfl

/-- Lexing lines preserves what the state knows of the spans before them. -/
theorem wellEmbedded_shown (session : Session) (lines : List Text) {spans : List Span}
    (h : Embeds spans session.state) : WellEmbedded (spans ++ session.shown lines) := by
  induction lines generalizing session spans with
  | nil => simpa [Session.shown] using h.wellEmbedded
  | cons line lines ih =>
    have hline := embeds_scan session.scope .start session.state line spans h
    rw [← map_span_filter_tokenize session.scope line session.offset] at hline
    have hlines := ih (session.line line).2 hline
    simpa [Session.shown, Session.line, List.append_assoc] using hlines

/-- At the start of a document nothing is shown, and no element is open. -/
theorem embeds_initial : Embeds [] .initial where
  wellEmbedded := ⟨by simp, by simp⟩
  markup _ := by simp
  pending h := absurd rfl h
  inside h := absurd rfl h

/-- In what a document shows, every block of an embedded language stands directly between the end of
the start tag and the closing tag of its element. -/
theorem shown_bracketed (scope : LinkScope) (lines : List Text) {language : Language}
    (hl : language ≠ .markup) {before block after : List Span}
    (hs : (Session.start scope).shown lines = before ++ block ++ after)
    (hb : IsBlock language before block after) : Bracketed language before after := by
  have h := wellEmbedded_shown (Session.start scope) lines embeds_initial
  exact h.bracketed hl hs hb

/-- A script whose start tag goes over two lines, in an attribute value, and whose closing tag is
spelled in another letter case. -/
theorem shown_bracketed_over_lines :
    let before : List Span :=
      [⟨.markupTagDelimiter, .markup, "<".toList, .empty⟩,
        ⟨.markupTagName, .markup, "script".toList, .empty⟩,
        ⟨.whitespace, .markup, " ".toList, .empty⟩,
        ⟨.markupTagAttribute, .markup, "a".toList, .empty⟩,
        ⟨.operator, .markup, "=".toList, .empty⟩,
        ⟨.markupTagAttributeValue, .markup, "'".toList, .empty⟩,
        ⟨.markupTagAttributeValue, .markup, "'".toList, .empty⟩,
        ⟨.markupTagDelimiter, .markup, ">".toList, .empty⟩]
    let block : List Span :=
      [⟨.identifier, .script, "x".toList, .empty⟩, ⟨.commentEol, .script, "// y".toList, .empty⟩]
    let after : List Span :=
      [⟨.markupTagDelimiter, .markup, "</".toList, .empty⟩,
        ⟨.markupTagName, .markup, "Script".toList, .empty⟩]
    (Session.start .comments).shown
        ["<script a='".toList, "'>x".toList, "// y</Script".toList] = before ++ block ++ after ∧
      IsBlock .script before block after ∧ Bracketed .script before after := by
  intro before block after
  have hs : (Session.start .comments).shown
      ["<script a='".toList, "'>x".toList, "// y</Script".toList] = before ++ block ++ after := by
    decide +kernel
  have hb : IsBlock .script before block after := ⟨by decide, by decide, by decide, by decide⟩
  exact ⟨hs, hb, shown_bracketed .comments _ (by decide) hs hb⟩

end LineLexer
