import LineLexer.Proofs.ClosingTag.Host

/-!
# The closing tag and scripts

Quoted literals and templates hide the closing tag of a script. Two more pieces go over it: a
regular expression, and the operator of two brackets, whose second one may be that of the tag. No
other piece does (`Script.heeds_move`), so from all other code and from comments the script ends at
its closing tag (`hidesScriptTag_or_isDelimiter`), also directly behind its start tag. That it would
from all code is refuted by the operator (`exists_operator_over_closing_tag`).
-/

namespace LineLexer

/-- Kinds of quoted literals, of the text of templates and of interpolations. -/
def Kind.isScriptLiteral (kind : Kind) : Bool :=
  kind == .literalStringDouble || kind == .errorString || kind == .literalChar ||
    kind == .errorChar || kind == .literalBackquote || kind == .variableName

namespace Script

/-- Literals and regular expressions go over a closing tag, and the operator of two brackets over
its first character. -/
def Hides (span : Span) (i : Nat) : Prop :=
  span.kind.isScriptLiteral = true ∨ span.kind = .regex ∨
    span.kind = .operator ∧ span.text = "<<".toList ∧ i = 1

section

variable {text : Text}

/-- A clear piece heeds the closing tag. -/
theorem heeds_clear {kind : Kind} {width : Nat} {next : ScriptState}
    (h : Clear .script text width) :
    Heeds .script Hides text (carve (one kind width next).pieces text) :=
  heeds_of_clear h

/-- Pieces of literals heed the closing tag. -/
theorem heeds_of_isScriptLiteral {pieces : List Piece}
    (h : ∀ piece ∈ pieces, piece.kind.isScriptLiteral = true) :
    Heeds .script Hides text (carve pieces text) := by
  refine heeds_of_hides fun span hspan i => .inl ?_
  obtain ⟨piece, hpiece, hkind, -⟩ := exists_piece_of_mem_carve hspan
  rw [hkind]
  exact h piece hpiece

/-- A comment to the end of the line heeds the closing tag. -/
theorem heeds_lineComment :
    Heeds .script Hides text (carve (lineComment text).pieces text) := by
  refine heeds_clear fun i hi => not_closesAt_of_closingTagIndex? fun index hindex => ?_
  rw [Language.closingTag_script] at hindex
  rwa [Option.mem_def.1 hindex] at hi

/-- A comment heeds the closing tag. -/
theorem heeds_comment {lead : Nat} (h : Clear .script text lead) :
    Heeds .script Hides text (carve (comment lead (text.drop lead)).pieces text) := by
  unfold comment
  split
  next width hw =>
    rw [← Language.closingTag_script] at hw
    exact heeds_clear (h.add (clear_commentWidth? hw))
  next hw =>
    rw [← Language.closingTag_script] at hw
    exact heeds_clear (h.add (clear_of_commentWidth?_eq_none hw _))

/-- A quoted literal hides the closing tag. -/
theorem heeds_literal {quote : Quote} {valid : Bool} {lead : Nat} {body : Text} :
    Heeds .script Hides text (carve (literal quote valid lead body).pieces text) := by
  apply heeds_of_isScriptLiteral
  simp only [literal, one, List.mem_singleton, forall_eq, piece]
  split <;> cases quote <;> rfl

/-- A template hides the closing tag. -/
theorem heeds_template {valid : Bool} {lead : Nat} {body : Text} :
    Heeds .script Hides text (carve (template valid lead body).pieces text) := by
  have hkind : ∀ valid, (templateKind valid).isScriptLiteral = true := by decide
  apply heeds_of_isScriptLiteral
  simp only [template]
  split
  · simp [one, piece, hkind]
  · simp [one, piece, hkind]
  · exact List.forall_mem_cons.2 ⟨hkind _, by simp [piece, Kind.isScriptLiteral]⟩

/-- An interpolation hides the closing tag. -/
theorem heeds_interpolation {depth : Depth} {body : Text} :
    Heeds .script Hides text (carve (interpolation depth body).pieces text) :=
  heeds_of_isScriptLiteral (by simp [interpolation, one, piece, Kind.isScriptLiteral])

end

/-! ## Numbers and operators -/

/-- A number heeds the closing tag. -/
theorem heeds_number (c : Char) (rest : Text) :
    Heeds .script Hides (c :: rest) (carve (number c rest).pieces (c :: rest)) :=
  heeds_clear ((clear_of_isStretch (by decide) (isStretch_numeral c rest)).add
    (clear_runLength (by decide) _))

/-- Within an operator of more than one character, a bracket is the second of two, or an equals sign
comes after it. -/
theorem operators_bracket : ∀ operator ∈ operators, ∀ i < operator.length, 0 < i →
    operator[i]? = some '<' → operator = "<<".toList ∧ i = 1 ∨ operator[i + 1]? = some '=' := by
  decide

/-- An operator heeds the closing tag. -/
theorem heeds_operator {c : Char} {rest : Text} (hc : ¬ClosesAt .script (c :: rest)) :
    Heeds .script Hides (c :: rest) (carve (operator (c :: rest)).pieces (c :: rest)) := by
  refine heeds_carve_singleton fun i hi hclose => .inr (.inr ⟨rfl, ?_⟩)
  have hpos : 0 < i := by
    rw [Nat.pos_iff_ne_zero]
    rintro rfl
    exact hc hclose
  simp only [piece] at hi ⊢
  unfold operatorWidth at hi ⊢
  split at hi
  next operator hfind =>
    have hprefix : operator.isPrefixOf (c :: rest) = true := by
      simpa using List.find?_some hfind
    obtain ⟨tail, htail⟩ := List.isPrefixOf_iff_prefix.1 hprefix
    obtain ⟨after, hafter⟩ := hclose.eq_cons
    have hchars : (c :: rest)[i]? = some '<' ∧ (c :: rest)[i + 1]? = some '/' := by
      rw [← List.head?_drop, ← List.head?_drop, ← List.drop_drop, hafter]
      exact ⟨rfl, rfl⟩
    rw [← htail] at hchars ⊢
    rw [List.take_left]
    rw [List.getElem?_append_left hi] at hchars
    refine (operators_bracket operator (List.mem_of_find?_eq_some hfind) i hi hpos
      hchars.1).resolve_right fun hequals => ?_
    -- An equals sign of the operator would stand where the slash of the tag is.
    obtain ⟨hlt, -⟩ := List.getElem?_eq_some_iff.1 hequals
    rw [List.getElem?_append_left hlt, hequals] at hchars
    simp at hchars
  next => omega

/-! ## All moves -/

/-- Every move of a script heeds the closing tag. -/
theorem heeds_move (regexAllowed : Bool) (state : ScriptState) (c : Char) (rest : Text) :
    Heeds .script Hides (c :: rest)
      (carve (move regexAllowed state c rest).pieces (c :: rest)) := by
  cases state with
  | comment => exact heeds_comment (clear_zero .script (c :: rest))
  | literal quote valid => exact heeds_literal
  | template valid => exact heeds_template
  | interpolation depth => exact heeds_interpolation
  | code =>
    simp only [move, code]
    split
    next hblank =>
      have hc : c ≠ '<' := by
        rintro rfl
        exact absurd hblank (by decide)
      exact heeds_clear ((clear_runLength (by decide) rest).cons (not_closesAt_of_ne hc _ _))
    split
    · exact heeds_closeElement (by simp) _ _ _
    -- From here on no closing tag stands at the first character.
    next htest =>
    have hc : ¬ClosesAt .script (c :: rest) := not_closesAt_of_test htest
    have hchar : ∀ {kind next}, Heeds .script Hides (c :: rest)
        (carve (one kind 1 next).pieces (c :: rest)) := heeds_clear ((clear_zero _ rest).cons hc)
    split
    next hslash =>
      subst hslash
      unfold slash
      split
      · exact heeds_lineComment
      split
      next hstar =>
        have hlead : Clear .script ('/' :: rest) 2 := (clear_one hstar (by decide)).cons hc
        exact heeds_comment hlead
      split
      · split
        · -- A regular expression goes over what it finds.
          refine heeds_of_hides fun span hspan i => .inr (.inl ?_)
          obtain ⟨piece, hpiece, hkind, -⟩ := exists_piece_of_mem_carve hspan
          rw [hkind, List.mem_singleton.1 hpiece, Script.piece]
        · exact heeds_operator hc
      · exact heeds_operator hc
    split
    · exact heeds_template
    split
    · exact heeds_literal
    unfold plainCode
    split
    · exact heeds_number c rest
    split
    · exact hchar
    split
    · exact hchar
    split
    · exact heeds_clear ((clear_runLength (by decide) rest).cons hc)
    split
    · exact heeds_operator hc
    · exact hchar

end Script

/-! ## Tokens -/

/-- A token of a script that may go over the closing tag at a position: a literal, a part of a
template, a regular expression, or the operator of two brackets that ends with the first character
of the tag. -/
def Token.HidesScriptTag (token : Token) (pos : Nat) : Prop :=
  token.kind.isScriptLiteral = true ∨ token.kind = .regex ∨
    token.kind = .operator ∧ token.text = "<<".toList ∧ token.stop = pos + 1

instance (token : Token) (pos : Nat) : Decidable (token.HidesScriptTag pos) :=
  inferInstanceAs (Decidable (_ ∨ _))

/-- A closing tag that a token of a script covers is within a literal, a template or a regular
expression, or starts with the second bracket of an operator. Where a token of the script stops at
a closing tag, and where a line in a script starts with one, either such a token goes on or the
bracket of the tag comes next, in markup. The bracket comes next wherever the scan stands at the tag
in code or in a comment, be it behind a token of the script or behind the start tag. -/
theorem hidesScriptTag_or_isDelimiter (scope : LinkScope) (base : Nat) (state : ResumeState)
    {before rest : Text} (hclose : ClosesAt .script rest) :
    let tokens := (tokenize scope (before ++ rest) base state).tokens
    let here := base + byteLength before
    (∀ token ∈ tokens, token.Covers here → token.language = .script →
      token.HidesScriptTag here) ∧
    ((before = [] ∧ state.language = .script ∨
        ∃ token ∈ tokens, token.stop = here ∧ token.language = .script) →
      (∃ token ∈ tokens, token.Covers here ∧ token.language = .script ∧
        token.HidesScriptTag here) ∨
      ∃ bracket ∈ tokens, bracket.offset = here ∧ bracket.span.IsDelimiter "</".toList) ∧
    ∀ spans (there : ResumeState), Reaches .start state (before ++ rest) spans there rest →
      there.language = .script → there.IsUnquoted →
      ∃ bracket ∈ tokens, bracket.offset = here ∧ bracket.span.IsDelimiter "</".toList := by
  intro tokens here
  have hcovers : ∀ token ∈ tokens, token.Covers here → token.language = .script →
      token.HidesScriptTag here := by
    intro token htoken hc hlang
    have hheeds : Heeds .script Script.Hides (before ++ rest)
        (scan .start state (before ++ rest)).spans := by
      refine heeds_scan (by simp) (fun past state c rest hstate => ?_) .start state _
      cases state with
      | markup state => cases hstate
      | style state => cases hstate
      | script state => exact Script.heeds_move _ state c rest
    obtain ⟨offset, span, inner, outer, hpart, hhere, htext, hhides⟩ :=
      exists_hiding_of_covers hheeds hclose htoken hc hlang
    rw [Token.HidesScriptTag, (kind_of_mem_placeFrom_split hpart).1]
    refine hhides.imp_right fun hhides => hhides.imp_right fun ⟨hkind, htwo, hone⟩ => ?_
    -- The operator is not split, so the token has its text and its place.
    have hscope : scope.appliesTo span.kind = false := by
      rw [hkind]
      cases scope <;> rfl
    obtain rfl := eq_place_of_mem_placeFrom_split hscope hpart
    refine ⟨hkind, htwo, ?_⟩
    have hinner : byteLength inner = 1 := by
      rw [htwo] at htext
      match inner, hone with
      | [c], _ =>
        obtain rfl : '<' = c := (List.cons.inj htext).1
        rfl
    have hbytes : byteLength span.text = 2 := by
      rw [htwo]
      rfl
    simp only [Token.stop, Token.length, Span.place, hbytes]
    omega
  refine ⟨hcovers, hides_or_leaves (by simp) hclose hcovers, ?_⟩
  intro spans there hreach hlanguage hthere
  exact hreach.exists_bracket hthere (hlanguage ▸ hclose) scope base

/-- A closing tag in mixed case that ends a comment of a script, and one behind a start tag. -/
theorem isDelimiter_after_scriptComment :
    let tag := "</Script>".toList
    let comment := (tokenize .comments ("// ".toList ++ tag) 5 (.script .code)).tokens
    let spans := (haltAfter 2 .start .initial ("<script>".toList ++ tag)).spans
    ClosesAt .script tag ∧
      (∃ token ∈ comment, token.stop = 8 ∧ token.language = .script) ∧
      (∃ bracket ∈ comment, bracket.offset = 8 ∧ bracket.span.IsDelimiter "</".toList) ∧
      Reaches .start .initial ("<script>".toList ++ tag) spans (.script .code) tag ∧
      ∃ bracket ∈ (tokenize .comments ("<script>".toList ++ tag) 5 .initial).tokens,
        bracket.offset = 13 ∧ bracket.span.IsDelimiter "</".toList := by
  intro tag comment spans
  have hclose : ClosesAt .script tag :=
    ⟨"</Script".toList, ">".toList, rfl, by decide, by rintro _ ⟨⟩; rfl⟩
  have hstops : ∃ token ∈ comment, token.stop = 8 ∧ token.language = .script := by
    decide +kernel
  have hnone : ¬∃ token ∈ comment, token.Covers 8 ∧ token.language = .script ∧
      token.HidesScriptTag 8 := by
    decide +kernel
  have hreach : Reaches .start .initial ("<script>".toList ++ tag) spans (.script .code) tag :=
    reaches_of_haltAfter_eq 2 (by decide +kernel)
  exact ⟨hclose, hstops,
    ((hidesScriptTag_or_isDelimiter .comments 5 (.script .code) hclose).2.1
      (.inr hstops)).resolve_left hnone,
    hreach, (hidesScriptTag_or_isDelimiter .comments 5 .initial hclose).2.2 spans _ hreach rfl
      trivial⟩

/-- A bracket before a closing tag joins the bracket of the tag to one operator, and the script goes
on. -/
theorem exists_operator_over_closing_tag :
    ∃ (before rest : Text) (base : Nat) (state : ResumeState), ClosesAt .script rest ∧
      (∃ token ∈ (tokenize .off (before ++ rest) base state).tokens,
        token.Covers (base + byteLength before) ∧ token.language = .script ∧
          token.kind.isScriptLiteral = false) ∧
      (tokenize .off (before ++ rest) base state).finish = .script .code := by
  have hcovers : ∃ token ∈ (tokenize .off ("<script>a<".toList ++ "</script>".toList) 0
      .initial).tokens, token.Covers (0 + byteLength "<script>a<".toList) ∧
        token.language = .script ∧ token.kind.isScriptLiteral = false := by
    decide +kernel
  have hfinish : (tokenize .off ("<script>a<".toList ++ "</script>".toList) 0 .initial).finish =
      .script .code := by
    decide +kernel
  exact ⟨"<script>a<".toList, "</script>".toList, 0, .initial,
    ⟨"</script".toList, ">".toList, rfl, by decide, by rintro _ ⟨⟩; rfl⟩, hcovers, hfinish⟩

end LineLexer
