import LineLexer.Proofs.ClosingTag.Host
import LineLexer.Proofs.Grammar.Style

/-!
# The closing tag ends a style sheet

In all contexts of a style sheet only a quoted literal hides the closing tag (`Style.heeds_move`).
Everywhere else, in comments too and directly behind its start tag, the style sheet ends at its
first closing tag (`styleLiteral_or_isDelimiter`).
-/

namespace LineLexer

namespace Style

/-- Quoted literals hide a closing tag. -/
def Hides (span : Span) (_ : Nat) : Prop :=
  span.kind = .literalStringDouble ∨ span.kind = .literalChar

/-- A comment heeds the closing tag. -/
theorem heeds_comment {context : StyleContext} {lead : Nat} {text : Text}
    (h : Clear .style text lead) :
    Heeds .style Hides text (carve (comment context lead (text.drop lead)).pieces text) := by
  unfold comment
  split
  next width hw =>
    rw [← Language.closingTag_style] at hw
    exact heeds_of_clear (h.add (clear_commentWidth? hw))
  next hw =>
    rw [← Language.closingTag_style] at hw
    exact heeds_of_clear (h.add (clear_of_commentWidth?_eq_none hw _))

/-- A literal hides the closing tag. -/
theorem heeds_literal {quote : Quote} {context : StyleContext} {lead : Nat} {body text : Text} :
    Heeds .style Hides text (carve (literal quote context lead body).pieces text) := by
  refine heeds_of_hides fun span hspan i => ?_
  obtain ⟨piece, hpiece, hk, -⟩ := exists_piece_of_mem_carve hspan
  rw [Hides, hk, kind_of_mem_literal hpiece]
  cases quote <;> simp [literalKind]

/-! ## Moves -/

/-- Every move in code heeds the closing tag. -/
theorem CodeMove.heeds {context : StyleContext} {c : Char} {rest : Text} {move : Move}
    (h : CodeMove context c rest move) :
    Heeds .style Hides (c :: rest) (carve move.pieces (c :: rest)) := by
  cases h with
  | blanks hblank =>
    have hc : c ≠ '<' := by
      rintro rfl
      exact absurd hblank (by decide)
    exact heeds_of_clear ((clear_runLength (by decide) rest).cons (not_closesAt_of_ne hc _ _))
  | comment hslash hstar =>
    subst hslash
    have hlead : Clear .style ('/' :: rest) 2 :=
      (clear_one hstar (by decide)).cons (not_closesAt_of_ne (by decide) _ _)
    exact heeds_comment hlead
  | closingTag => exact heeds_closeElement (by simp) _ _ _
  | literal => exact heeds_literal
  | slashes hselector hslash =>
    subst hslash
    exact heeds_of_clear
      ((clear_runLength (by decide) rest).cons (not_closesAt_of_ne (by decide) _ _))
  | plain hopener htag hplain =>
    obtain ⟨kind, width, flags, next, rfl, hinner⟩ := hplain
    exact heeds_of_clear
      ((clear_of_isStretch (by decide) hinner).cons (not_closesAt_of_test htag))

/-- Every move of a style sheet heeds the closing tag. -/
theorem heeds_move (state : StyleState) (c : Char) (rest : Text) :
    Heeds .style Hides (c :: rest) (carve (move state c rest).pieces (c :: rest)) := by
  cases state with
  | code context => exact (codeMove_contextMove context c rest).heeds
  | comment context => exact heeds_comment (clear_zero .style (c :: rest))
  | literal quote context => exact heeds_literal

end Style

/-! ## Tokens -/

/-- A closing tag that a token of a style sheet covers is within a quoted literal. Where a token of
the style sheet stops at a closing tag, and where a line in a style sheet starts with one, either
such a literal goes on or the bracket of the tag comes next, in markup. The bracket comes next
wherever the scan stands at the tag in code or in a comment of any context, be it behind a token of
the style sheet or behind the start tag. -/
theorem styleLiteral_or_isDelimiter (scope : LinkScope) (base : Nat) (state : ResumeState)
    {before rest : Text} (hclose : ClosesAt .style rest) :
    let tokens := (tokenize scope (before ++ rest) base state).tokens
    let here := base + byteLength before
    (∀ token ∈ tokens, token.Covers here → token.language = .style →
      token.kind = .literalStringDouble ∨ token.kind = .literalChar) ∧
    ((before = [] ∧ state.language = .style ∨
        ∃ token ∈ tokens, token.stop = here ∧ token.language = .style) →
      (∃ token ∈ tokens, token.Covers here ∧ token.language = .style ∧
        (token.kind = .literalStringDouble ∨ token.kind = .literalChar)) ∨
      ∃ bracket ∈ tokens, bracket.offset = here ∧ bracket.span.IsDelimiter "</".toList) ∧
    ∀ spans (there : ResumeState), Reaches .start state (before ++ rest) spans there rest →
      there.language = .style → there.IsUnquoted →
      ∃ bracket ∈ tokens, bracket.offset = here ∧ bracket.span.IsDelimiter "</".toList := by
  intro tokens here
  have hcovers : ∀ token ∈ tokens, token.Covers here → token.language = .style →
      token.kind = .literalStringDouble ∨ token.kind = .literalChar := by
    intro token htoken hc hlang
    have hheeds : Heeds .style Style.Hides (before ++ rest)
        (scan .start state (before ++ rest)).spans := by
      refine heeds_scan (by simp) (fun past state c rest hstate => ?_) .start state _
      cases state with
      | markup state => cases hstate
      | style state => exact Style.heeds_move state c rest
      | script state => cases hstate
    obtain ⟨offset, span, inner, outer, hpart, -, -, hhides⟩ :=
      exists_hiding_of_covers hheeds hclose htoken hc hlang
    rw [(kind_of_mem_placeFrom_split hpart).1]
    exact hhides
  refine ⟨hcovers, hides_or_leaves (by simp) hclose hcovers, ?_⟩
  intro spans there hreach hlanguage hthere
  exact hreach.exists_bracket hthere (hlanguage ▸ hclose) scope base

/-- A closing tag in capitals that ends a comment of a style sheet, and one behind a start tag. -/
theorem isDelimiter_after_styleComment :
    let tag := "</STYLE>".toList
    let comment := (tokenize .comments ("/* ".toList ++ tag) 5 (.style (.code .selector))).tokens
    let spans := (haltAfter 2 .start .initial ("<style>".toList ++ tag)).spans
    ClosesAt .style tag ∧
      (∃ token ∈ comment, token.stop = 8 ∧ token.language = .style) ∧
      (∃ bracket ∈ comment, bracket.offset = 8 ∧ bracket.span.IsDelimiter "</".toList) ∧
      Reaches .start .initial ("<style>".toList ++ tag) spans (.style (.code .selector)) tag ∧
      ∃ bracket ∈ (tokenize .comments ("<style>".toList ++ tag) 5 .initial).tokens,
        bracket.offset = 12 ∧ bracket.span.IsDelimiter "</".toList := by
  intro tag comment spans
  have hclose : ClosesAt .style tag :=
    ⟨"</STYLE".toList, ">".toList, rfl, by decide, by rintro _ ⟨⟩; rfl⟩
  have hstops : ∃ token ∈ comment, token.stop = 8 ∧ token.language = .style := by
    decide +kernel
  have hnone : ¬∃ token ∈ comment, token.Covers 8 ∧ token.language = .style ∧
      (token.kind = .literalStringDouble ∨ token.kind = .literalChar) := by
    decide +kernel
  have hreach : Reaches .start .initial ("<style>".toList ++ tag) spans (.style (.code .selector))
      tag :=
    reaches_of_haltAfter_eq 2 (by decide +kernel)
  exact ⟨hclose, hstops,
    ((styleLiteral_or_isDelimiter .comments 5 (.style (.code .selector)) hclose).2.1
      (.inr hstops)).resolve_left hnone,
    hreach, (styleLiteral_or_isDelimiter .comments 5 .initial hclose).2.2 spans _ hreach rfl
      trivial⟩

end LineLexer
