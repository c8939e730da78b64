import LineLexer.Proofs.ClosingTag.Clear
import LineLexer.Proofs.Text.LetterCase
import LineLexer.Proofs.Token.Reach

/-!
# A closing tag is read alike in every language

The closing tag of a script or of a style sheet is looked for in two ways: the embedded language
tests for the tag and takes it by its fixed width, and markup takes any name and looks it up. Where
the tag stands both make the same move (`Markup.content_of_closesAt`, `step_of_closesAt`), so a line
that starts with it has the same tokens and the same state at its end whether it starts in the code
of the embedded language or in the content of markup (`tokenize_at_closing_tag`). A comment is left
for the code around it first, so wherever a scan stands at the tag in either, the bracket of the tag
is the next token (`Reaches.exists_bracket`).
-/

namespace LineLexer

/-- The code of a script or of a style sheet, in any context of it. -/
def ResumeState.IsCode : ResumeState → Prop
  | .script .code | .style (.code _) => True
  | _ => False

/-- Code is not of markup. -/
theorem ResumeState.IsCode.language_ne {state : ResumeState} (h : state.IsCode) :
    state.language ≠ .markup := by
  cases state with
  | markup state => exact h.elim
  | style | script => simp [language]

/-! ## The move of markup -/

/-- The name of an element, in any letter case, is all that the characters of names go over. -/
theorem takeWhile_isTagNameChar {language : Language} {name more : Text}
    (hname : foldCase name = language.element)
    (hmore : ∀ next ∈ more.head?, isTagNameChar next = false) :
    (name ++ more).takeWhile isTagNameChar = name := by
  have helement : language.element.all isTagNameChar = true := by
    cases language <;> decide
  have hall : ∀ c ∈ name, isTagNameChar c = true := by
    intro c hc
    rw [← caseBlind_isTagNameChar c]
    apply List.all_eq_true.1 helement
    rw [← hname]
    exact List.mem_map_of_mem hc
  have hstop : more.takeWhile isTagNameChar = [] := by
    cases more with
    | nil => rfl
    | cons next more => exact List.takeWhile_cons_of_neg (by simp [hmore next rfl])
  rw [List.takeWhile_append_of_pos hall, hstop, List.append_nil]

/-- The elements whose content is of another language are known to markup. -/
theorem contains_element {language : Language} (hl : language ≠ .markup) :
    elements.contains language.element = true := by
  cases language with
  | markup => exact absurd rfl hl
  | style => decide +kernel
  | script => decide +kernel

/-- At a closing tag, markup takes the bracket and the name that the embedded language takes. -/
theorem Markup.content_of_closesAt {language : Language} (hl : language ≠ .markup) {c : Char}
    {rest : Text} (h : ClosesAt language (c :: rest)) :
    content c rest = closeElement language.closingTag := by
  obtain ⟨name, more, htext, hname, hmore⟩ := h.exists_name
  obtain ⟨rfl, rfl⟩ := List.cons.inj htext
  have hstart : (name ++ more).head?.any isNameStart = true := by
    obtain ⟨first, tail, rfl⟩ : ∃ first tail, name = first :: tail := by
      cases name with
      | nil =>
        cases language with
        | markup => exact absurd rfl hl
        | style | script => cases hname
      | cons first tail => exact ⟨first, tail, rfl⟩
    have hletter : language.element.head?.all Char.isAlpha = true := by
      cases language <;> decide
    have halpha : first.isAlpha = true := by
      rw [← caseBlind_isAlpha first]
      apply (Option.all_eq_true _ _).1 hletter
      rw [← hname]
      rfl
    simp [isNameStart, halpha]
  have hwidth : name.length = language.closingTag.length - 2 := by
    rw [← length_foldCase name, hname]
    rfl
  have hflags : nameFlags name = .empty := by
    rw [nameFlags, ← elements.contains_foldCase name, hname, contains_element hl]
    rfl
  have hopening : ∀ tail : Text, tail.head?.any isNameStart = true →
      opening ('/' :: tail) = tagStart 2 (tail.takeWhile isTagNameChar) .endTag := by
    intro tail htail
    simp [opening, htail]
  -- Markup takes any name up to the character that ends it, and here it is that of the element.
  calc content '<' ('/' :: (name ++ more))
      = opening ('/' :: (name ++ more)) := rfl
    _ = tagStart 2 name .endTag := by rw [hopening _ hstart, takeWhile_isTagNameChar hname hmore]
    _ = closeElement language.closingTag := by
      rw [tagStart, hflags, hwidth]
      rfl

/-! ## The moves of the embedded languages -/

/-- At its closing tag, the code of a style sheet ends in any context. -/
theorem Style.move_of_atClosingTag (context : StyleContext) {rest : Text}
    (h : atClosingTag styleTag ('<' :: rest) = true) :
    move (.code context) '<' rest = closeElement styleTag := by
  have hblank : isBlank '<' = false := by decide
  simp [move, contextMove, hblank, h]

/-- At its closing tag, code is left. -/
theorem step_of_closesAt {state : ResumeState} (hstate : state.IsCode) (past : Recall) {c : Char}
    {rest : Text} (h : ClosesAt state.language (c :: rest)) :
    step past state c rest = closeElement state.language.closingTag := by
  have htag := atClosingTag_iff.2 h
  obtain ⟨tail, htext⟩ := h.eq_cons
  obtain ⟨rfl, rfl⟩ := List.cons.inj htext
  cases state with
  | markup state => exact hstate.elim
  | style state =>
    cases state with
    | code context =>
      rw [ResumeState.language, Language.closingTag_style] at htag ⊢
      exact Style.move_of_atClosingTag context htag
    | comment | literal => exact hstate.elim
  | script state =>
    cases state with
    | code =>
      rw [ResumeState.language, Language.closingTag_script] at htag ⊢
      exact Script.move_of_atClosingTag _ htag
    | comment | literal | template | interpolation => exact hstate.elim

/-! ## Wherever a scan stands -/

/-- Code and comments of a script or of a style sheet. -/
def ResumeState.IsUnquoted : ResumeState → Prop
  | .script .code | .script .comment | .style (.code _) | .style (.comment _) => True
  | _ => False

/-- A scan whose next move takes nothing comes to stand before the same text in the next state. -/
theorem reaches_of_step_nothing {past : Recall} {state next : ResumeState} {c : Char} {rest : Text}
    {kind : Kind} {language : Language} {flags : Flags}
    (hstep : step past state c rest = ⟨[⟨kind, 0, language, flags⟩], next⟩) :
    Reaches past state (c :: rest) [] next (c :: rest) := by
  have hmove := Reaches.step past state c rest
  rwa [hstep] at hmove

/-- At a closing tag, a comment goes over to the code around it, and takes nothing. -/
theorem exists_reaches_code {there : ResumeState} (hthere : there.IsUnquoted) (past : Recall)
    {text : Text} (h : ClosesAt there.language text) :
    ∃ code : ResumeState, code.IsCode ∧ code.language = there.language ∧
      Reaches past there text [] code text := by
  have hwidth := commentWidth?_of_closesAt h
  obtain ⟨rest, rfl⟩ := h.eq_cons
  cases there with
  | markup state => exact hthere.elim
  | style state =>
    cases state with
    | code context => exact ⟨.style (.code context), trivial, rfl, .here ..⟩
    | comment context =>
      rw [ResumeState.language, Language.closingTag_style] at hwidth
      have hstep : step past (.style (.comment context)) '<' ('/' :: rest) =
          Style.code .commentMultiline 0 context := by
        simp only [step, Style.move, Style.comment, hwidth]
      exact ⟨.style (.code context), trivial, rfl, reaches_of_step_nothing hstep⟩
    | literal quote context => exact hthere.elim
  | script state =>
    cases state with
    | code => exact ⟨.script .code, trivial, rfl, .here ..⟩
    | comment =>
      rw [ResumeState.language, Language.closingTag_script] at hwidth
      have hstep : step past (.script .comment) '<' ('/' :: rest) =
          Script.one .commentMultiline 0 .code := by
        simp only [step, Script.move, Script.comment, hwidth]
      exact ⟨.script .code, trivial, rfl, reaches_of_step_nothing hstep⟩
    | literal | template | interpolation => exact hthere.elim

/-- Where a scan stands at a closing tag in code or in a comment, the bracket of the tag is the next
token. -/
theorem Reaches.exists_bracket {state there : ResumeState} {before rest : Text} {spans : List Span}
    (hreach : Reaches .start state (before ++ rest) spans there rest)
    (hthere : there.IsUnquoted) (hclose : ClosesAt there.language rest) (scope : LinkScope)
    (base : Nat) :
    ∃ bracket ∈ (tokenize scope (before ++ rest) base state).tokens,
      bracket.offset = base + byteLength before ∧ bracket.span.IsDelimiter "</".toList := by
  obtain ⟨code, hcode, hlanguage, hmore⟩ :=
    exists_reaches_code hthere (spans.foldl Recall.note .start) hclose
  have hbefore : before = spelled spans := List.append_cancel_right hreach.text_eq
  -- A comment takes nothing here, so the scan stands in code before the same text.
  have hhere := hreach.trans hmore
  rw [List.append_nil] at hhere
  rw [← hlanguage] at hclose
  obtain ⟨bracket, name, hcarve, hbracket, -⟩ :=
    exists_carve_closeElement hcode.language_ne (atClosingTag_iff.2 hclose)
  obtain ⟨tail, htail⟩ := hclose.eq_cons
  rw [htail] at hclose hcarve
  have hstep := step_of_closesAt hcode (spans.foldl Recall.note .start) hclose
  have hmove := Reaches.step (spans.foldl Recall.note .start) code '<' ('/' :: tail)
  rw [hstep, hcarve, ← htail] at hmove
  obtain ⟨back, hspans⟩ := (hhere.trans hmove).exists_spans_eq
  rw [List.append_assoc] at hspans
  have hscope : scope.appliesTo bracket.kind = false := by
    rw [hbracket.kind]
    cases scope <;> rfl
  refine ⟨_, place_mem_tokenize_of_spans_eq hspans hscope base, ?_, hbracket⟩
  rw [hbefore]
  rfl

/-! ## Lines -/

/-- Scans that start with the same move are the same. -/
theorem scan_eq_of_step_eq {past : Recall} {state other : ResumeState} {c : Char} {rest : Text}
    (h : step past state c rest = step past other c rest) :
    scan past state (c :: rest) = scan past other (c :: rest) := by
  rw [scan_cons, scan_cons, h]

/-- A line that starts with the closing tag of a script or style sheet is read in its code as it is
in the content of markup: the tokens are the same, and so is the state at the end. -/
theorem tokenize_at_closing_tag (scope : LinkScope) {line : Text} (base : Nat)
    {state : ResumeState} (hstate : state.IsCode) (hline : ClosesAt state.language line) :
    tokenize scope line base state = tokenize scope line base (.markup .content) := by
  obtain ⟨rest, rfl⟩ := hline.eq_cons
  have hmove : step .start state '<' ('/' :: rest) =
      step .start (.markup .content) '<' ('/' :: rest) :=
    calc step .start state '<' ('/' :: rest)
        = closeElement state.language.closingTag := step_of_closesAt hstate .start hline
      _ = Markup.content '<' ('/' :: rest) :=
          (Markup.content_of_closesAt hstate.language_ne hline).symm
  rw [tokenize, tokenize, scan_eq_of_step_eq hmove]

/-- In capitals, before a blank and before further tags, the closing tags of both elements are read
alike. -/
theorem tokenize_at_closing_tag_in_capitals :
    let script := "</SCRIPT x><b>&lt;".toList
    let style := "</Style>a</style>".toList
    ClosesAt .script script ∧ ClosesAt .style style ∧
      tokenize .off script 7 (.script .code) = tokenize .off script 7 (.markup .content) ∧
      tokenize .off style 7 (.style (.code .propertyValue)) =
        tokenize .off style 7 (.markup .content) := by
  intro script style
  have hscript : ClosesAt .script script := atClosingTag_iff.1 (by decide)
  have hstyle : ClosesAt .style style := atClosingTag_iff.1 (by decide)
  exact ⟨hscript, hstyle, tokenize_at_closing_tag .off 7 trivial hscript,
    tokenize_at_closing_tag .off 7 trivial hstyle⟩

end LineLexer
