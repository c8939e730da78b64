import LineLexer.Proofs.Grammar.Markup
import LineLexer.Proofs.Scan.Language
import LineLexer.Proofs.Token.Next

/-!
# Text content

Outside tags, the next token is decided by what the text starts with: an entity reference is taken
as long as it can be, and where neither a reference nor a tag starts, plain text goes up to a blank,
a bracket or an ampersand. So no reference and no tag starts within plain text (`content_exact`).
-/

namespace LineLexer

namespace Markup

section

variable {c : Char} {rest text : Text}

/-! ## Moves -/

/-- Text content takes the longest entity reference. -/
theorem cutsOff_entity (scope : LinkScope) {taken : Text} (h : entity.IsLongest text taken) :
    CutsOff scope (.markup .content) text [⟨.markupEntityReference, .markup, taken, .empty⟩]
      (.markup .content) := by
  obtain ⟨more, rfl⟩ := exists_cons_of_mem_entity h.mem
  obtain ⟨behind, rfl⟩ := h.isPrefix
  have hwidth : entityWidth? (more ++ behind) = some ('&' :: more).length :=
    entityWidth?_eq_some_iff.2 ⟨_, h, rfl⟩
  have hstep : ∀ past, step past (.markup .content) '&' (more ++ behind) =
      one .markupEntityReference ('&' :: more).length .content := by
    intro past
    simp [step, move, content, isBlank, hwidth]
  have hcut := cutsOff_of_step_singleton scope hstep (Nat.succ_pos _) (by cases scope <;> rfl)
  rwa [← List.cons_append, List.take_left] at hcut

/-- Where neither an entity reference nor a tag starts, text content takes plain text. -/
theorem exists_cutsOff_text (scope : LinkScope) (hblank : isBlank c = false)
    (hentity : ¬StartsEntity (c :: rest)) (htag : ¬StartsTag (c :: rest)) : ∃ run left,
      rest = run ++ left ∧ (∀ d ∈ run, isTextChar d = true) ∧
      (∀ d ∈ left.head?, isTextChar d = false) ∧
      CutsOff scope (.markup .content) (c :: rest) [⟨.identifier, .markup, c :: run, .empty⟩]
        (.markup .content) := by
  have hmove : content c rest = textRun rest := by
    rcases content_cases c rest with ⟨h, -⟩ | ⟨h, -⟩ | ⟨h, -⟩ | ⟨-, -, -, hmove⟩
    · rw [hblank] at h
      cases h
    · exact absurd h hentity
    · exact absurd h htag
    · exact hmove
  obtain ⟨run, left, rfl, hrun, hleft, hlength⟩ := Script.exists_run isTextChar rest
  have hstep : ∀ past, step past (.markup .content) c (run ++ left) =
      one .identifier (run.length + 1) .content := by
    intro past
    rw [← hlength]
    exact hmove
  have hcut := cutsOff_of_step_singleton scope hstep (Nat.succ_pos _) (by cases scope <;> rfl)
  rw [List.take_succ_cons, List.take_left] at hcut
  exact ⟨run, left, rfl, hrun, hleft, hcut⟩

/-- Where text content takes a reference, one starts. -/
theorem startsEntity_of_mem_content {piece : Piece} (h : piece ∈ (content c rest).pieces)
    (hkind : piece.kind = .markupEntityReference) : StartsEntity (c :: rest) := by
  rcases content_cases c rest with
    ⟨-, hmove⟩ | ⟨hentity, -⟩ | ⟨-, hother⟩ | ⟨-, -, -, hmove⟩
  · rw [hmove] at h
    cases (kind_of_mem_one h).symm.trans hkind
  · exact hentity
  · have hmem := hother piece h
    rw [hkind] at hmem
    exact absurd hmem (by decide)
  · rw [hmove] at h
    cases (kind_of_mem_one h).symm.trans hkind

/-- Where text content takes plain text, neither a reference nor a tag starts. -/
theorem content_eq_textRun {piece : Piece} (h : piece ∈ (content c rest).pieces)
    (hkind : piece.kind = .identifier) :
    ¬StartsEntity (c :: rest) ∧ ¬StartsTag (c :: rest) ∧ content c rest = textRun rest := by
  rcases content_cases c rest with
    ⟨-, hmove⟩ | ⟨-, -, width, hmove⟩ | ⟨-, hother⟩ | ⟨-, hentity, htag, hmove⟩
  · rw [hmove] at h
    cases (kind_of_mem_one h).symm.trans hkind
  · rw [hmove] at h
    cases (kind_of_mem_one h).symm.trans hkind
  · have hmem := hother piece h
    rw [hkind] at hmem
    exact absurd hmem (by decide)
  · exact ⟨hentity, htag, hmove⟩

end

end Markup

open Markup

/-! ## Plain text -/

/-- Plain text of markup is cut off in text content, and starts neither a reference nor a tag. -/
theorem eq_textRun_of_mem_step {past : Recall} {state : ResumeState} {c : Char} {rest : Text}
    {span : Span} (h : span ∈ carve (step past state c rest).pieces (c :: rest))
    (hlanguage : span.language = .markup) (hkind : span.kind = .identifier) :
    ¬StartsEntity (c :: rest) ∧ ¬StartsTag (c :: rest) ∧ step past state c rest = textRun rest := by
  obtain ⟨here, rfl⟩ := exists_markup_of_mem_step h hlanguage (by rw [hkind]; decide)
  obtain ⟨piece, hpiece, hpieceKind, -⟩ := exists_piece_of_mem_carve h
  have hpieceKind := hpieceKind.symm.trans hkind
  obtain rfl := eq_content_of_mem hpiece (by rw [hpieceKind]; decide)
  exact content_eq_textRun hpiece hpieceKind

/-- Characters of plain text start neither a reference nor a tag. -/
theorem not_starts_of_isTextChar {c : Char} (hc : isTextChar c = true) (rest : Text) :
    ¬StartsEntity (c :: rest) ∧ ¬StartsTag (c :: rest) := by
  simp only [isTextChar, Bool.and_eq_true, bne_iff_ne] at hc
  refine ⟨fun h => hc.2 (startsEntity_cons_iff.1 h).1, fun h => ?_⟩
  obtain ⟨more, hmore⟩ := h.exists_cons
  exact hc.1.2 (List.cons.inj hmore).1

section

variable {scope : LinkScope} {line : Text} {base : Nat} {start : ResumeState}

/-- A token of plain text in markup stands at its place, none of its characters but the first is a
bracket or an ampersand, and neither a reference nor a tag starts within it. -/
theorem exists_plainText {token : Token} (h : token ∈ (tokenize scope line base start).tokens)
    (hlanguage : token.language = .markup) (hkind : token.kind = .identifier) :
    ∃ front back, line = front ++ (token.text ++ back) ∧
      token.offset = base + byteLength front ∧ (∀ c ∈ token.text.tail, c ≠ '<' ∧ c ≠ '&') ∧
      ∀ inner outer, token.text = inner ++ outer → outer ≠ [] →
        ¬StartsEntity (outer ++ back) ∧ ¬StartsTag (outer ++ back) := by
  obtain ⟨front, span, back, hspans, hmem⟩ := exists_span_of_mem h
  obtain ⟨hspanKind, hspanLanguage⟩ := kind_of_mem_placeFrom_split hmem
  rw [hkind, eq_comm] at hspanKind
  rw [hlanguage, eq_comm] at hspanLanguage
  have hscope : scope.appliesTo span.kind = false := by
    rw [hspanKind]
    cases scope <;> rfl
  obtain rfl := eq_place_of_mem_placeFrom_split hscope hmem
  obtain ⟨earlier, first, later, here, c, rest, hreach, hcarve, rfl⟩ :=
    exists_reaches .start start line span back front hspans
  have hspan : span ∈ carve (step (earlier.foldl Recall.note .start) here c rest).pieces
      (c :: rest) := by
    simp [hcarve]
  obtain ⟨hentity, htag, hmove⟩ := eq_textRun_of_mem_step hspan hspanLanguage hspanKind
  rw [hmove] at hcarve
  obtain ⟨rfl, -, rfl⟩ := eq_of_carve_singleton hcarve
  obtain ⟨run, left, rfl, hrun, -, hlength⟩ := Script.exists_run isTextChar rest
  have htext : (c :: (run ++ left)).take (runLength isTextChar (run ++ left) + 1) = c :: run := by
    rw [hlength, List.take_succ_cons, List.take_left]
  rw [List.append_nil]
  simp only [Span.place, Markup.piece, htext]
  refine ⟨spelled earlier, left, hreach.text_eq, rfl, fun d hd => ?_,
    fun inner outer hsplit hne => ?_⟩
  · have hd := hrun d hd
    simp only [isTextChar, Bool.and_eq_true, bne_iff_ne] at hd
    exact ⟨hd.1.2, hd.2⟩
  · -- At the first character the move tells, and at any other one the run.
    cases inner with
    | nil =>
      rw [List.nil_append] at hsplit
      rw [← hsplit]
      exact ⟨hentity, htag⟩
    | cons d inner =>
      obtain ⟨e, outer, rfl⟩ := List.exists_cons_of_ne_nil hne
      have he : e ∈ run := by simp [(List.cons.inj hsplit).2]
      exact not_starts_of_isTextChar (hrun e he) _

/-- What text content takes is decided by what the text starts with, blanks aside. The next token is
an entity reference if and only if the text starts with one, and then it is the longest; where no
tag starts either, it is plain text up to a blank, a bracket or an ampersand. So plain text holds
brackets and ampersands as its first character only, and no reference and no tag starts in it. -/
theorem content_exact (scope : LinkScope) (line : Text) (base : Nat) (start : ResumeState) :
    (∀ spans text, Reaches .start start line spans (.markup .content) text →
      (∃ c ∈ text.head?, isBlank c = false) →
      ((∃ token, IsNext scope line base start spans token ∧
          token.kind = .markupEntityReference) ↔ StartsEntity text) ∧
      (StartsEntity text → ∃ taken, entity.IsLongest text taken ∧
        CutsOff scope (.markup .content) text [⟨.markupEntityReference, .markup, taken, .empty⟩]
          (.markup .content)) ∧
      (¬StartsEntity text → ¬StartsTag text → ∃ c run left, text = c :: (run ++ left) ∧
        (∀ d ∈ run, isTextChar d = true) ∧ (∀ d ∈ left.head?, isTextChar d = false) ∧
        CutsOff scope (.markup .content) text [⟨.identifier, .markup, c :: run, .empty⟩]
          (.markup .content))) ∧
    ∀ token ∈ (tokenize scope line base start).tokens,
      token.language = .markup → token.kind = .identifier →
      ∃ front back, line = front ++ (token.text ++ back) ∧
        token.offset = base + byteLength front ∧ (∀ c ∈ token.text.tail, c ≠ '<' ∧ c ≠ '&') ∧
        ∀ inner outer, token.text = inner ++ outer → outer ≠ [] →
          ¬StartsEntity (outer ++ back) ∧ ¬StartsTag (outer ++ back) := by
  refine ⟨fun spans text hreach hhead => ?_, fun token => exists_plainText⟩
  have hlongest : StartsEntity text → ∃ taken, entity.IsLongest text taken ∧
      CutsOff scope (.markup .content) text [⟨.markupEntityReference, .markup, taken, .empty⟩]
        (.markup .content) := by
    intro hentity
    obtain ⟨taken, htaken⟩ := hentity.exists_isLongest
    exact ⟨taken, htaken, cutsOff_entity scope htaken⟩
  obtain ⟨c, hc, hblank⟩ := hhead
  obtain ⟨rest, rfl⟩ := List.head?_eq_some_iff.1 hc
  refine ⟨⟨?_, fun hentity => ?_⟩, hlongest, fun hentity htag => ?_⟩
  · rintro ⟨token, hnext, hkind⟩
    obtain ⟨piece, hpiece, hpieceKind⟩ :=
      hreach.exists_piece_of_isNext (content_width_pos c rest) hnext
    exact startsEntity_of_mem_content hpiece (hpieceKind.symm.trans hkind)
  · obtain ⟨taken, -, hcut⟩ := hlongest hentity
    exact ⟨_, hcut.isNext hreach base, rfl⟩
  · obtain ⟨run, left, rfl, hrun, hleft, hcut⟩ := exists_cutsOff_text scope hblank hentity htag
    exact ⟨c, run, left, rfl, hrun, hleft, hcut⟩

end

/-- Within a line an entity reference is next, behind a word that ends at its ampersand. -/
theorem content_exact_of_word :
    let line := "a&amp;b".toList
    let spans := (haltAfter 1 .start .initial line).spans
    let text := "&amp;b".toList
    Reaches .start .initial line spans (.markup .content) text ∧
      (∃ c ∈ text.head?, isBlank c = false) ∧
      ∃ token, IsNext .comments line 0 .initial spans token ∧
        token.kind = .markupEntityReference := by
  intro line spans text
  have hreach : Reaches .start .initial line spans (.markup .content) text :=
    reaches_of_haltAfter_eq 1 (by decide +kernel)
  have hhead : ∃ c ∈ text.head?, isBlank c = false := ⟨'&', rfl, by decide⟩
  have hentity : StartsEntity text :=
    startsEntity_cons_iff.2 ⟨rfl, 5, by decide +kernel⟩
  exact ⟨hreach, hhead,
    ((content_exact .comments line 0 .initial).1 spans text hreach hhead).1.2 hentity⟩

end LineLexer
