import LineLexer.Proofs.LetterCase.Markup
import LineLexer.Proofs.LetterCase.Style
import LineLexer.Proofs.Scan.Language
import LineLexer.Proofs.Token.Cover

/-!
# Letter case outside scripts

Markup and style sheets do not heed the case of ASCII letters. Two texts that are the same in small
letters have the same move in them (`Markup.move_foldCase`, `Style.move_foldCase`), and what the
moves leave is the same in small letters again. A script heeds the case, but at its start it looks
for its closing tag first, and that in any letter case; so as long as no script is read on a line,
the moves are the same (`step_congr_foldCase`). Main statement: `tokenize_sameButCase`, for two
lines whose bytes are the same in small letters.
-/

namespace LineLexer

/-! ## Moves -/

/-- At the start of a script, a text that no script is read of is at the closing tag. -/
theorem Script.atClosingTag_of_language {regexAllowed : Bool} {c : Char} {rest : Text}
    (h : ∀ span ∈ carve (move regexAllowed .code c rest).pieces (c :: rest),
      span.language ≠ .script) :
    c = '<' ∧ atClosingTag scriptTag (c :: rest) = true := by
  rcases move_language regexAllowed .code c rest with hstays | ⟨hc, htag, -⟩
  · -- A move of code takes something, which would be of the script.
    obtain ⟨span, hspan, hlanguage⟩ :=
      hstays.exists_mem_carve (code_width_pos regexAllowed c rest) c rest
    exact absurd hlanguage (h span hspan)
  · exact ⟨hc, htag⟩

/-- Two texts that are the same in small letters have the same move, if no script is read of the
first. -/
theorem step_congr_foldCase {past : Recall} {state : ResumeState} (hstate : state.IsBeforeScript)
    {c d : Char} {rest other : Text} (hfold : foldCase (c :: rest) = foldCase (d :: other))
    (hspans : ∀ span ∈ carve (step past state c rest).pieces (c :: rest),
      span.language ≠ .script) :
    step past state d other = step past state c rest ∧
      (step past state c rest).next.IsBeforeScript := by
  obtain ⟨hhead, htail⟩ : c.toLower = d.toLower ∧ foldCase rest = foldCase other :=
    List.cons_eq_cons.1 hfold
  cases state with
  | markup state =>
    refine ⟨?_, Markup.move_isBeforeScript _ state c rest⟩
    rw [step, step, ← Markup.move_foldCase, ← Markup.move_foldCase _ _ c, hhead, htail]
  | style state =>
    refine ⟨?_, Style.move_isBeforeScript state c rest⟩
    rw [step, step, ← Style.move_foldCase, ← Style.move_foldCase _ c, hhead, htail]
  | script state =>
    obtain rfl : state = .code :=
      ResumeState.script.inj (hstate.resolve_left (not_not_intro rfl))
    obtain ⟨rfl, htag⟩ := Script.atClosingTag_of_language hspans
    obtain rfl : d = '<' := (toLower_eq_iff (by decide)).1 hhead.symm
    have hother : atClosingTag scriptTag ('<' :: other) = true := by
      rw [← atClosingTag_foldCase, ← hfold, atClosingTag_foldCase, htag]
    rw [step, step, Script.move_of_atClosingTag _ htag, Script.move_of_atClosingTag _ hother]
    exact ⟨rfl, .inl (by decide)⟩

/-! ## Spans -/

/-- A span with its text in small letters. -/
def Span.folded (span : Span) : Span :=
  { span with text := foldCase span.text }

/-- The spans that are carved off a text in small letters. -/
theorem carve_foldCase (pieces : List Piece) (text : Text) :
    carve pieces (foldCase text) = (carve pieces text).map Span.folded := by
  induction pieces generalizing text with
  | nil => rfl
  | cons piece pieces ih =>
    have hempty : (foldCase (text.take piece.width)).isEmpty = (text.take piece.width).isEmpty :=
      List.isEmpty_map
    simp only [carve, take_foldCase, drop_foldCase, ih, hempty]
    split <;> rfl

/-- Of spans outside scripts, only what is the same in small letters is recalled. -/
theorem foldl_note_folded {spans : List Span} (h : ∀ span ∈ spans, span.language ≠ .script)
    (past : Recall) :
    (spans.map Span.folded).foldl Recall.note past = spans.foldl Recall.note past := by
  induction spans generalizing past with
  | nil => rfl
  | cons span spans ih =>
    have hnote : past.note span.folded = past.note span := by
      simp [Recall.note, Span.folded, h span List.mem_cons_self]
    rw [List.map_cons, List.foldl_cons, List.foldl_cons, hnote,
      ih fun span hspan => h span (List.mem_cons_of_mem _ hspan)]

/-- The languages of spans are those of the spans in small letters. -/
theorem forall_language_of_map_folded {spans others : List Span}
    (hfold : others.map Span.folded = spans.map Span.folded)
    (h : ∀ span ∈ spans, span.language ≠ .script) : ∀ span ∈ others, span.language ≠ .script := by
  intro span hspan
  have hmem : span.folded ∈ spans.map Span.folded := hfold ▸ List.mem_map_of_mem hspan
  obtain ⟨first, hfirst, heq⟩ := List.mem_map.1 hmem
  have hlanguage : first.folded.language = span.folded.language := congrArg Span.language heq
  exact fun hspan => h first hfirst (hlanguage.trans hspan)

/-- Scans of two texts that are the same in small letters are so too, if no script is read of the
first. -/
theorem scan_congr_foldCase (past : Recall) (state : ResumeState) (text : Text) :
    state.IsBeforeScript → ∀ other, foldCase text = foldCase other →
      (∀ span ∈ (scan past state text).spans, span.language ≠ .script) →
        (scan past state other).spans.map Span.folded =
            (scan past state text).spans.map Span.folded ∧
          (scan past state other).finish = (scan past state text).finish := by
  fun_induction scan past state text with
  | case1 past state =>
    intro _ other hfold _
    obtain rfl : other = [] := by simpa [foldCase] using hfold.symm
    simp
  | case2 past state c rest move spans more ih =>
    intro hstate other hfold hspans
    obtain ⟨d, tail, rfl⟩ : ∃ d tail, other = d :: tail := by
      cases other with
      | nil => cases hfold
      | cons d tail => exact ⟨d, tail, rfl⟩
    have hfirst : ∀ span ∈ spans, span.language ≠ .script := fun span hspan =>
      hspans span (List.mem_append_left _ hspan)
    obtain ⟨hmove, hnext⟩ := step_congr_foldCase hstate hfold hfirst
    have hcarve : (carve move.pieces (d :: tail)).map Span.folded = spans.map Span.folded := by
      rw [← carve_foldCase, ← hfold, carve_foldCase]
    have hnote : (carve move.pieces (d :: tail)).foldl Recall.note past =
        spans.foldl Recall.note past := by
      rw [← foldl_note_folded hfirst, ← hcarve,
        foldl_note_folded (forall_language_of_map_folded hcarve hfirst)]
    have hleft : foldCase ((c :: rest).drop move.width) =
        foldCase ((d :: tail).drop move.width) := by
      rw [← drop_foldCase, hfold, drop_foldCase]
    obtain ⟨hmore, hfinish⟩ := ih hnext _ hleft fun span hspan =>
      hspans span (List.mem_append_right _ hspan)
    rw [scan_cons, hmove]
    dsimp only
    rw [hnote, List.map_append, List.map_append, hcarve]
    exact ⟨congrArg _ hmore, hfinish⟩

/-! ## Tokens -/

/-- Tokens that differ at most in the case of the letters in their texts. -/
structure Token.SameButCase (token other : Token) : Prop where
  kind_eq : token.kind = other.kind
  language_eq : token.language = other.language
  offset_eq : token.offset = other.offset
  length_eq : token.length = other.length
  flags_eq : token.flags = other.flags
  foldCase_text_eq : foldCase token.text = foldCase other.text

/-- Texts that are the same in small letters take the same bytes. -/
theorem byteLength_eq_of_foldCase_eq {text other : Text} (h : foldCase text = foldCase other) :
    byteLength text = byteLength other := by
  rw [← byteLength_foldCase, h, byteLength_foldCase]

/-- Spans that are the same in small letters have the same places. -/
theorem forall₂_placeFrom_of_map_folded {spans others : List Span}
    (h : others.map Span.folded = spans.map Span.folded) (offset : Nat) :
    List.Forall₂ Token.SameButCase (placeFrom offset spans) (placeFrom offset others) := by
  induction spans generalizing others offset with
  | nil =>
    obtain rfl : others = [] := by simpa using h
    exact .nil
  | cons span spans ih =>
    cases others with
    | nil => cases h
    | cons first others =>
      obtain ⟨hfirst, hothers⟩ := List.cons_eq_cons.1 h
      have htext : foldCase span.text = foldCase first.text := (congrArg Span.text hfirst).symm
      have hlength := byteLength_eq_of_foldCase_eq htext
      refine .cons ⟨(congrArg Span.kind hfirst).symm, (congrArg Span.language hfirst).symm, rfl,
        hlength, (congrArg Span.flags hfirst).symm, htext⟩ ?_
      rw [hlength]
      exact ih hothers _

/-- Markup and style sheets do not heed the case of ASCII letters: of two lines whose bytes are the
same in small letters, if no script is read on the first, none is read on the second, the tokens are
the same but for the case of the letters in their texts, and the lines end in the same state. -/
theorem tokenize_sameButCase {state : ResumeState} (hstate : state.language ≠ .script)
    {line other : Text}
    (hlines : (utf8Bytes line).map lowerByte = (utf8Bytes other).map lowerByte) (offset : Nat)
    (hscript : ∀ token ∈ (tokenize .off line offset state).tokens, token.language ≠ .script) :
    (∀ token ∈ (tokenize .off other offset state).tokens, token.language ≠ .script) ∧
      List.Forall₂ Token.SameButCase (tokenize .off line offset state).tokens
        (tokenize .off other offset state).tokens ∧
      (tokenize .off line offset state).finish = (tokenize .off other offset state).finish := by
  have hfold : foldCase line = foldCase other := by
    rwa [map_lowerByte_utf8Bytes, map_lowerByte_utf8Bytes, utf8Bytes_inj] at hlines
  have hspans : ∀ span ∈ (scan .start state line).spans, span.language ≠ .script :=
    forall_scan_of_tokenize hscript
  obtain ⟨hfolded, hfinish⟩ :=
    scan_congr_foldCase .start state line (.inl hstate) other hfold hspans
  have htokens : List.Forall₂ Token.SameButCase (tokenize .off line offset state).tokens
      (tokenize .off other offset state).tokens := by
    rw [tokenize_off, tokenize_off]
    exact forall₂_placeFrom_of_map_folded hfolded offset
  refine ⟨fun token htoken => ?_, htokens, hfinish.symm⟩
  rw [tokenize_off] at htoken
  have hspan : token.span ∈ (scan .start state other).spans := by
    rw [← map_span_placeFrom offset (scan .start state other).spans]
    exact List.mem_map_of_mem htoken
  exact forall_language_of_map_folded hfolded hspans token.span hspan

/-- A start tag that hands over to a style sheet, and a closing tag that hands back at the start of
a script. -/
theorem tokenize_sameButCase_over_tags :
    let line :=
      "<STYLE>@Media\x7b:HOVER\x7b\xc9:1EM!Important</Style>&#XAF;<Script></SCRIPT".toList
    let other :=
      "<style>@media\x7b:hover\x7b\xc9:1em!important</style>&#xaf;<script></script".toList
    let lexed := tokenize .off line 7 .initial
    let folded := tokenize .off other 7 .initial
    (ResumeState.initial.language ≠ .script ∧
      (utf8Bytes line).map lowerByte = (utf8Bytes other).map lowerByte ∧
      ∀ token ∈ lexed.tokens, token.language ≠ .script) ∧
      (∀ token ∈ folded.tokens, token.language ≠ .script) ∧
      List.Forall₂ Token.SameButCase lexed.tokens folded.tokens ∧
      lexed.finish = folded.finish := by
  intro line other lexed folded
  have hstate : ResumeState.initial.language ≠ .script := by decide
  have hlines : (utf8Bytes line).map lowerByte = (utf8Bytes other).map lowerByte := by
    decide +kernel
  have hscript : ∀ token ∈ lexed.tokens, token.language ≠ .script := by decide +kernel
  exact ⟨⟨hstate, hlines, hscript⟩, tokenize_sameButCase hstate hlines 7 hscript⟩

end LineLexer
