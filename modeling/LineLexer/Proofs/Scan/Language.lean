import LineLexer.Proofs.Embedding
import LineLexer.Proofs.Scan.Reach

/-!
# The languages of a scan

A move from an embedded language cuts off spans of it and stays in it, or it cuts off the closing
tag of the element (`step_language`). So directly after a span of an embedded language comes another
one of it or the bracket of a closing tag (`next_scan`), and so starts what is scanned from such a
language (`head_scan`). A script is entered at its start only: markup and style sheets go on in a
state that no script has been read in (`Markup.move_isBeforeScript`, `Style.move_isBeforeScript`).
-/

namespace LineLexer

/-- The start of the closing tag of the element whose content is in a language. -/
def Language.closingTag (language : Language) : Text :=
  '<' :: '/' :: language.element

@[simp] theorem Language.closingTag_style : Language.style.closingTag = styleTag := by decide

@[simp] theorem Language.closingTag_script : Language.script.closingTag = scriptTag := by decide

/-- A span may directly follow one of an embedded language: it is of that language too, or it is the
bracket of a closing tag. -/
def Span.Follows (next : Span) (language : Language) : Prop :=
  next.language = language ∨ next.IsDelimiter "</".toList

/-- The spans that are carved off by a move of one language are of it. -/
theorem Move.IsOf.language_of_mem_carve {move : Move} {language : Language}
    (h : move.IsOf language) {text : Text} {span : Span} (hs : span ∈ carve move.pieces text) :
    span.language = language := by
  obtain ⟨piece, hpiece, -, hlang, -⟩ := exists_piece_of_mem_carve hs
  rw [hlang, h.language_eq piece hpiece]

/-- A move of one language that takes something cuts off a span of it. -/
theorem Move.IsOf.exists_mem_carve {move : Move} {language : Language} (h : move.IsOf language)
    (hwidth : 0 < move.width) (c : Char) (rest : Text) :
    ∃ span ∈ carve move.pieces (c :: rest), span.language = language := by
  have hne : carve move.pieces (c :: rest) ≠ [] := carve_ne_nil hwidth (List.cons_ne_nil c rest)
  obtain ⟨span, more, hspans⟩ := List.exists_cons_of_ne_nil hne
  have hmem : span ∈ carve move.pieces (c :: rest) := by simp [hspans]
  exact ⟨span, hmem, h.language_of_mem_carve hmem⟩

/-- At a closing tag, its bracket comes first. -/
theorem exists_carve_closeElement {language : Language} (hl : language ≠ .markup) {text : Text}
    (h : atClosingTag language.closingTag text = true) :
    ∃ bracket name, carve (closeElement language.closingTag).pieces text = [bracket, name] ∧
      bracket.IsDelimiter "</".toList ∧ name.language = .markup := by
  obtain ⟨name, -, hcarve⟩ := carve_closeElement (Language.element_ne_nil hl) h
  exact ⟨_, _, hcarve, ⟨rfl, rfl, rfl⟩, rfl⟩

/-- A move from an embedded language stays in it, or it cuts off a closing tag. -/
theorem step_language {state : ResumeState} (hstate : state.language ≠ .markup) (past : Recall)
    (c : Char) (rest : Text) :
    (step past state c rest).StaysIn state.language ∨
      ∃ bracket name, carve (step past state c rest).pieces (c :: rest) = [bracket, name] ∧
        bracket.IsDelimiter "</".toList ∧ name.language = .markup := by
  cases state with
  | markup state => exact absurd rfl hstate
  | style state =>
    rcases Style.move_language state c rest with hstays | ⟨-, htag, hmove⟩
    · exact .inl hstays
    · rw [← Language.closingTag_style] at htag
      rw [step, hmove, ← Language.closingTag_style]
      exact .inr (exists_carve_closeElement hstate htag)
  | script state =>
    rcases Script.move_language (Script.regexMayFollow past.script) state c rest with
      hstays | ⟨-, htag, hmove⟩
    · exact .inl hstays
    · rw [← Language.closingTag_script] at htag
      rw [step, hmove, ← Language.closingTag_script]
      exact .inr (exists_carve_closeElement hstate htag)

/-- A span that a move cuts off is of markup, or of the language of the state, in which the move
then stays. -/
theorem language_of_mem_step {past : Recall} {state : ResumeState} {c : Char} {rest : Text}
    {span : Span} (h : span ∈ carve (step past state c rest).pieces (c :: rest)) :
    span.language = .markup ∨
      span.language = state.language ∧ (step past state c rest).StaysIn state.language := by
  by_cases hstate : state.language = .markup
  · cases state with
    | markup state => exact .inl ((Markup.move_isOf ..).language_of_mem_carve h)
    | style state => cases hstate
    | script state => cases hstate
  rcases step_language hstate past c rest with hstays | ⟨bracket, name, hcarve, hbracket, hname⟩
  · exact .inr ⟨hstays.language_of_mem_carve h, hstays⟩
  · rw [hcarve] at h
    simp only [List.mem_cons, List.not_mem_nil, or_false] at h
    rcases h with rfl | rfl
    · exact .inl hbracket.language
    · exact .inl hname

/-- A span of markup that is neither a delimiter nor a name of a tag is cut off in markup, since the
embedded languages cut off none of markup but those of their closing tag. -/
theorem exists_markup_of_mem_step {past : Recall} {state : ResumeState} {c : Char} {rest : Text}
    {span : Span} (h : span ∈ carve (step past state c rest).pieces (c :: rest))
    (hlanguage : span.language = .markup)
    (hkind : span.kind ∉ [.markupTagDelimiter, .markupTagName]) :
    ∃ here, state = .markup here := by
  obtain ⟨piece, hpiece, hpieceKind, -⟩ := exists_piece_of_mem_carve h
  rw [hpieceKind] at hkind
  have hclose : ∀ tag, piece ∈ (closeElement tag).pieces →
      piece.kind ∈ [.markupTagDelimiter, .markupTagName] := by
    intro tag hmem
    simp only [closeElement, List.mem_cons, List.not_mem_nil, or_false] at hmem
    rcases hmem with rfl | rfl <;> simp
  cases state with
  | markup here => exact ⟨here, rfl⟩
  | style state =>
    rcases Style.move_language state c rest with hstays | ⟨-, -, hmove⟩
    · rw [show span.language = .style from hstays.language_of_mem_carve h] at hlanguage
      cases hlanguage
    · rw [step, hmove] at hpiece
      exact absurd (hclose _ hpiece) hkind
  | script state =>
    rcases Script.move_language (Script.regexMayFollow past.script) state c rest with
      hstays | ⟨-, -, hmove⟩
    · rw [show span.language = .script from hstays.language_of_mem_carve h] at hlanguage
      cases hlanguage
    · rw [step, hmove] at hpiece
      exact absurd (hclose _ hpiece) hkind

/-- A span of a script is cut off in a script. -/
theorem exists_script_of_mem_step {past : Recall} {state : ResumeState} {c : Char} {rest : Text}
    {span : Span} (h : span ∈ carve (step past state c rest).pieces (c :: rest))
    (hlanguage : span.language = .script) : ∃ here, state = .script here := by
  have hstate : state.language = .script := by
    rcases language_of_mem_step h with hmarkup | ⟨hsame, -⟩
    · rw [hmarkup] at hlanguage
      cases hlanguage
    · exact hsame.symm.trans hlanguage
  cases state with
  | markup here => cases hstate
  | style here => cases hstate
  | script here => exact ⟨here, rfl⟩

/-- A scan from an embedded language starts with a span of it or with the bracket of a closing
tag. -/
theorem head_scan (past : Recall) (state : ResumeState) (text : Text) :
    state.language ≠ .markup →
      ∀ first ∈ (scan past state text).spans.head?, first.Follows state.language := by
  fun_induction scan past state text with
  | case1 => simp
  | case2 past state c rest move spans more ih =>
    intro hstate first hfirst
    rcases step_language hstate past c rest with hstays | ⟨bracket, name, hcarve, hbracket, -⟩
    · cases hspans : spans with
      | nil =>
        -- A move that cuts off nothing leaves the first span to the next one.
        rw [hspans, List.nil_append] at hfirst
        have hnext := hstays.next_language
        rw [← hnext]
        exact ih (by rw [hnext]; exact hstate) first hfirst
      | cons span tail =>
        rw [hspans] at hfirst
        obtain rfl : span = first := Option.some.inj hfirst
        have hmem : span ∈ carve (step past state c rest).pieces (c :: rest) := by
          change span ∈ spans
          simp [hspans]
        exact .inl (hstays.language_of_mem_carve hmem)
    · have hspans : spans = [bracket, name] := hcarve
      rw [hspans] at hfirst
      obtain rfl : bracket = first := Option.some.inj hfirst
      exact .inr hbracket

/-- Directly after a span of an embedded language comes another one of it or the bracket of a
closing tag. -/
theorem next_scan {past : Recall} {state : ResumeState} {text : Text} {front back : List Span}
    {span : Span} (hspans : (scan past state text).spans = front ++ span :: back)
    (hspan : span.language ≠ .markup) : ∀ next ∈ back.head?, next.Follows span.language := by
  obtain ⟨earlier, first, later, here, c, rest, hreach, hcarve, rfl⟩ :=
    exists_reaches past state text span back front hspans
  have hscan := hreach.scan_eq
  generalize earlier.foldl Recall.note past = recalled at hcarve hscan
  have hmem : ∀ other ∈ first ++ span :: later,
      other ∈ carve (step recalled here c rest).pieces (c :: rest) := by
    rw [hcarve]
    exact fun other h => h
  obtain ⟨hhere, hstays⟩ := (language_of_mem_step (hmem span (by simp))).resolve_left hspan
  rw [hhere] at hspan ⊢
  intro next hnext
  cases later with
  | nil =>
    -- The span is the last one of its move, so the next one starts the scan of what is left.
    have hback : back = (scan ((first ++ [span]).foldl Recall.note recalled)
        (step recalled here c rest).next
        ((c :: rest).drop (step recalled here c rest).width)).spans := by
      simpa [hscan, scan_cons, hcarve] using hspans.symm
    rw [← hstays.next_language] at hspan ⊢
    rw [hback] at hnext
    exact head_scan _ _ _ hspan next hnext
  | cons other later =>
    have hother : other = next := by
      rw [hscan, scan_cons] at hspans
      have hback : back.head? = some other := by
        simp only [hcarve, List.append_assoc, List.cons_append, List.append_cancel_left_eq,
          List.cons.injEq, true_and] at hspans
        rw [← hspans]
        rfl
      exact Option.some.inj (hback.symm.trans hnext)
    rw [← hother]
    exact .inl (hstays.language_of_mem_carve (hmem other (by simp)))

/-! ## The start of a script -/

/-- A state that no script has been read in: one of markup or of a style sheet, or the start of a
script. -/
def ResumeState.IsBeforeScript (state : ResumeState) : Prop :=
  state.language ≠ .script ∨ state = .script .code

/-- No script has been read within an interpolation. -/
theorem ResumeState.IsBeforeScript.ne_interpolation {state : ResumeState}
    (h : state.IsBeforeScript) (depth : Depth) : state ≠ .script (.interpolation depth) := by
  rintro rfl
  rcases h with hlanguage | hcode
  · exact hlanguage rfl
  · cases hcode

/-- Where a move of markup goes on, no script has been read. -/
theorem Markup.move_isBeforeScript (afterOperator : Bool) (state : MarkupState) (c : Char)
    (rest : Text) : (move afterOperator state c rest).next.IsBeforeScript := by
  rcases move_cases afterOperator state c rest with
    hcontinues | ⟨-, -, -, hmove⟩ | ⟨tag, -, -, hmove⟩
  · exact .inl (by rw [hcontinues.1]; decide)
  · exact .inl (by rw [hmove]; nofun)
  · rw [hmove]
    cases tag with
    | plain => exact .inl (by decide)
    | style => exact .inl (by decide)
    | script => exact .inr rfl

/-- Where a move of a style sheet goes on, no script has been read. -/
theorem Style.move_isBeforeScript (state : StyleState) (c : Char) (rest : Text) :
    (move state c rest).next.IsBeforeScript := by
  rcases move_language state c rest with hstays | ⟨-, -, hmove⟩
  · exact .inl (by rw [hstays.next_language]; decide)
  · exact .inl (by rw [hmove]; decide)

end LineLexer
