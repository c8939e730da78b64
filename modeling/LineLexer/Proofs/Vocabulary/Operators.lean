import LineLexer.Proofs.ClosingTag
import LineLexer.Proofs.Literal.Regex
import LineLexer.Proofs.Token.Next

/-!
# Operators are as long as they can be

The table of operators is read through from the longest to the shortest, so the first one that a
text starts with is the longest of them (`length_le_of_find?_isPrefixOf`). If there is none, the
first character is the operator (`IsOperator`). Where code comes to an operator character and
nothing else starts there, the next token is that operator, and no token of a line that is an
operator of a script goes on to another one of the table (`isOperator_tokenize`).
-/

namespace LineLexer

/-! ## The table -/

/-- In a table with the longest texts first, the first that a text starts with is the longest. -/
theorem length_le_of_find?_isPrefixOf {table : List Text} {text first other : Text}
    (hsorted : table.Pairwise fun earlier later => later.length ≤ earlier.length)
    (hfind : table.find? (·.isPrefixOf text) = some first) (hmem : other ∈ table)
    (hstarts : other <+: text) : other.length ≤ first.length := by
  obtain ⟨-, before, behind, rfl, hbefore⟩ := List.find?_eq_some_iff_append.1 hfind
  rcases List.mem_append.1 hmem with hother | hother
  · -- The texts before the first one are not at the head of the text.
    have hnot := hbefore other hother
    rw [List.isPrefixOf_iff_prefix.2 hstarts] at hnot
    cases hnot
  · rcases List.mem_cons.1 hother with rfl | hother
    · exact Nat.le_refl _
    · exact List.rel_of_pairwise_cons (List.pairwise_append.1 hsorted).2.1 hother

/-- The longest operators come first in the table. -/
theorem operators_sorted :
    operators.Pairwise fun earlier later => later.length ≤ earlier.length := by
  decide

/-- The operator at the head of a text: the longest one of the table, or the first character if the
text starts with none of them. -/
def IsOperator (text taken : Text) : Prop :=
  Grammar.IsLongest {operator | operator ∈ operators} text taken ∨
    (∀ operator ∈ operators, ¬operator <+: text) ∧
      ∃ c, Script.isOperatorChar c = true ∧ text.head? = some c ∧ taken = [c]

/-- What is measured at an operator character is the operator. -/
theorem isOperator_take_operatorWidth {c : Char} (hc : Script.isOperatorChar c = true)
    (rest : Text) : IsOperator (c :: rest) ((c :: rest).take (operatorWidth (c :: rest))) := by
  unfold operatorWidth
  split
  next operator hfind =>
    have hhead : operator.isPrefixOf (c :: rest) = true :=
      List.find?_some (p := fun head => List.isPrefixOf head (c :: rest)) hfind
    have hstarts := List.isPrefixOf_iff_prefix.1 hhead
    rw [← List.prefix_iff_eq_take.1 hstarts]
    exact .inl ⟨List.mem_of_find?_eq_some hfind, hstarts, fun _ =>
      length_le_of_find?_isPrefixOf operators_sorted hfind⟩
  next hnone =>
    refine .inr ⟨fun operator hmem hstarts => ?_, c, hc, rfl, rfl⟩
    exact List.find?_eq_none.1 hnone operator hmem (List.isPrefixOf_iff_prefix.2 hstarts)

/-- An operator does not go on to another one of the table with what follows it. -/
theorem IsOperator.not_extended {taken rest more : Text} (h : IsOperator (taken ++ rest) taken)
    (hne : more ≠ []) (hmore : more <+: rest) : taken ++ more ∉ operators := by
  intro hmem
  have hstarts : taken ++ more <+: taken ++ rest := (List.prefix_append_right_inj taken).2 hmore
  rcases h with hlongest | ⟨hnone, -⟩
  · have hle := hlongest.length_le _ hmem hstarts
    rw [List.length_append] at hle
    exact hne (List.length_eq_zero_iff.1 (by omega))
  · exact hnone _ hmem hstarts

namespace Script

/-! ## Operators in code -/

/-- Something other than an operator starts at a place of a line: a comment, the closing tag of the
script, or a regular expression, which goes by the code before the place. -/
def StartsOther (lexed : Lexed) (here : Nat) (text : Text) : Prop :=
  "//".toList <+: text ∨ "/*".toList <+: text ∨ ClosesAt .script text ∨
    ∃ rest, text = '/' :: rest ∧ (∀ prev ∈ (lexed.codeBefore here).getLast?, prev.MayPrecedeRegex) ∧
      (closingSlashes rest).Nonempty

/-- In code, an operator character other than a slash starts an operator unless it is the bracket of
the closing tag. -/
theorem code_eq_operator {c : Char} (hc : isOperatorChar c = true) (hslash : c ≠ '/')
    (regexAllowed : Bool) {rest : Text} (htag : atClosingTag scriptTag (c :: rest) = false) :
    code regexAllowed c rest = operator (c :: rest) := by
  have hother : isBlank c = false ∧ c ≠ '`' ∧ Quote.ofChar? c = none ∧ c.isDigit = false ∧
      c ∉ ['.', '(', ')', '[', ']', '{', '}', ';', ','] ∧ isWordStart c = false := by
    simp only [isOperatorChar, Bool.or_eq_true, beq_iff_eq, or_assoc] at hc
    rcases hc with rfl | rfl | rfl | rfl | rfl | rfl | rfl | rfl | rfl | rfl | rfl | rfl | rfl |
      rfl | rfl <;> decide
  obtain ⟨hblank, hbackquote, hquote, hdigit, hmark, hword⟩ := hother
  simp only [List.mem_cons, List.not_mem_nil, or_false, not_or] at hmark
  simp [code, plainCode, hblank, htag, hslash, hbackquote, hquote, hdigit, hmark, hword, hc]

/-- A slash is an operator where it starts neither a comment nor a regular expression. -/
theorem slash_eq_operator {rest : Text} (hline : rest.head? ≠ some '/')
    (hblock : rest.head? ≠ some '*') {allowed : Bool}
    (h : allowed = true → closingSlashes rest = ∅) :
    slash allowed rest = operator ('/' :: rest) := by
  rw [operator, operatorWidth_slash hline]
  exact slash_of_not hline hblock fun hallowed => regexWidth?_eq_none (h hallowed)

section

variable {start : ResumeState} {line rest : Text} {spans : List Span} {c : Char}

/-- Where the scan of a line stands in code before an operator character, and nothing else starts
there, the move is an operator. -/
theorem step_eq_operator (h : Reaches .start start line spans (.script .code) (c :: rest))
    (hc : isOperatorChar c = true) (base : Nat)
    (hnot : ¬StartsOther (tokenize .off line base start) (base + byteLength (spelled spans))
      (c :: rest)) :
    step (spans.foldl Recall.note .start) (.script .code) c rest = operator (c :: rest) := by
  simp only [StartsOther, not_or] at hnot
  obtain ⟨hline, hblock, htag, hregex⟩ := hnot
  by_cases hslash : c = '/'
  · subst hslash
    have hhead : ∀ d, ¬['/', d] <+: '/' :: rest → rest.head? ≠ some d := by
      rintro d hstarts hhead
      obtain ⟨tail, rfl⟩ := List.head?_eq_some_iff.1 hhead
      exact hstarts ⟨tail, rfl⟩
    refine slash_eq_operator (hhead '/' hline) (hhead '*' hblock) fun hallowed => ?_
    by_contra hclosed
    exact hregex ⟨rest, rfl, (h.regexMayFollow_iff base).1 hallowed,
      Set.nonempty_iff_ne_empty.2 hclosed⟩
  · rw [← atClosingTag_iff, Bool.not_eq_true, Language.closingTag_script] at htag
    exact code_eq_operator hc hslash _ htag

end

/-- A span of a script that a move cuts off as an operator is the one at the head of the text. -/
theorem isOperator_of_mem_step {past : Recall} {state : ResumeState} {c : Char} {rest : Text}
    {front back : List Span} {span : Span}
    (h : carve (step past state c rest).pieces (c :: rest) = front ++ span :: back)
    (hlanguage : span.language = .script) (hkind : span.kind = .operator) :
    front = [] ∧ ∃ left, c :: rest = span.text ++ left ∧ IsOperator (c :: rest) span.text := by
  have hmem : span ∈ carve (step past state c rest).pieces (c :: rest) := by simp [h]
  obtain ⟨here, rfl⟩ := exists_script_of_mem_step hmem hlanguage
  obtain ⟨piece, hpiece, hpieceKind, -⟩ := exists_piece_of_mem_carve hmem
  obtain ⟨hmove, hchar⟩ := eq_operator_of_mem_move hpiece (hpieceKind.symm.trans hkind)
  rw [step, hmove] at h
  obtain ⟨hfront, -, rfl⟩ := eq_of_carve_singleton h
  exact ⟨hfront, _, (List.take_append_drop ..).symm, isOperator_take_operatorWidth hchar rest⟩

end Script

open Script

/-- Where the code of a script comes to an operator character, and no comment, closing tag or
regular expression starts there, the next token is the operator at the head of the text, and code
goes on behind it. Every token of a line that is an operator of a script is the one at the head of
the text where it stands, so with what follows it on the line it makes up no other one of the
table. -/
theorem isOperator_tokenize (scope : LinkScope) (base : Nat) (start : ResumeState) (line : Text) :
    (∀ spans c rest, Reaches .start start line spans (.script .code) (c :: rest) →
      isOperatorChar c = true →
      ¬StartsOther (tokenize .off line base start) (base + byteLength (spelled spans)) (c :: rest) →
      ∃ taken left, c :: rest = taken ++ left ∧ IsOperator (c :: rest) taken ∧
        IsNext scope line base start spans
          ⟨.operator, .script, base + byteLength (spelled spans), taken, .empty⟩ ∧
        Reaches .start start line (spans ++ [⟨.operator, .script, taken, .empty⟩]) (.script .code)
          left) ∧
    ∀ token ∈ (tokenize scope line base start).tokens,
      token.kind = .operator → token.language = .script →
      ∃ before rest, line = before ++ (token.text ++ rest) ∧
        token.offset = base + byteLength before ∧ IsOperator (token.text ++ rest) token.text ∧
        ∀ more, more ≠ [] → more <+: rest → token.text ++ more ∉ operators := by
  have hscope : scope.appliesTo .operator = false := by cases scope <;> rfl
  constructor
  · intro spans c rest hreach hc hnot
    have hstep := step_eq_operator hreach hc base hnot
    have hthere := hreach.piece (operatorWidth_pos _) hstep
    exact ⟨_, _, (List.take_append_drop ..).symm, isOperator_take_operatorWidth hc rest,
      hthere.isNext hscope base, hthere⟩
  · intro token htoken hkind hlanguage
    obtain ⟨front, span, back, hspans, hmem⟩ := exists_span_of_mem htoken
    obtain ⟨hspanKind, -⟩ := kind_of_mem_placeFrom_split hmem
    rw [hkind] at hspanKind
    obtain rfl := eq_place_of_mem_placeFrom_split (hspanKind ▸ hscope) hmem
    obtain ⟨earlier, first, later, here, c, rest, hreach, hcarve, hfront⟩ :=
      exists_reaches _ _ _ span back front hspans
    obtain ⟨rfl, left, hsplit, hoperator⟩ :=
      isOperator_of_mem_step hcarve hlanguage hspanKind.symm
    rw [List.append_nil] at hfront
    rw [hsplit] at hoperator
    refine ⟨spelled front, left, ?_, rfl, hoperator, fun _ => hoperator.not_extended⟩
    rw [hreach.text_eq, hsplit, hfront]
    rfl

/-- Behind a name, the operator of four characters is taken and not one of the shorter ones that
the text starts with as well. The equals sign that is left is an operator alone. -/
theorem isOperator_tokenize_of_shift :
    let line := "a>>>==b".toList
    let spans := (haltAfter 1 .start (.script .code) line).spans
    let rest := ">>==b".toList
    let lexed := tokenize .off line 3 (.script .code)
    let sign : Token := ⟨.operator, .script, 8, ['='], .empty⟩
    Reaches .start (.script .code) line spans (.script .code) ('>' :: rest) ∧
      isOperatorChar '>' = true ∧
      ¬StartsOther lexed (3 + byteLength (spelled spans)) ('>' :: rest) ∧
      IsOperator ('>' :: rest) ">>>=".toList ∧
      sign ∈ lexed.tokens ∧ ∃ left, IsOperator ('=' :: left) ['='] := by
  intro line spans rest lexed sign
  have hreach : Reaches .start (.script .code) line spans (.script .code) ('>' :: rest) :=
    reaches_of_haltAfter_eq 1 (by decide +kernel)
  have hnot : ¬StartsOther lexed (3 + byteLength (spelled spans)) ('>' :: rest) := by
    rintro (hline | hblock | htag | ⟨_, hslash, -⟩)
    · exact absurd hline (by decide)
    · exact absurd hblock (by decide)
    · exact absurd (atClosingTag_iff.2 htag) (by decide)
    · simp at hslash
  have hsign : sign ∈ lexed.tokens := by decide +kernel
  obtain ⟨hnext, htokens⟩ := isOperator_tokenize .off 3 (.script .code) line
  obtain ⟨taken, left, -, hoperator, htaken, -⟩ := hnext spans '>' rest hreach (by decide) hnot
  have hshift : IsNext .off line 3 (.script .code) spans
      ⟨.operator, .script, 4, ">>>=".toList, .empty⟩ :=
    ⟨[sign, ⟨.identifier, .script, 9, ['b'], .empty⟩], by decide +kernel⟩
  obtain rfl : taken = ">>>=".toList := congrArg Token.text (htaken.unique hshift)
  obtain ⟨-, behind, -, -, halone, -⟩ := htokens sign hsign rfl rfl
  exact ⟨hreach, by decide, hnot, hoperator, hsign, behind, halone⟩

end LineLexer
