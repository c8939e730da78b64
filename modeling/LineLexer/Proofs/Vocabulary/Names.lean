import LineLexer.Proofs.ClosingTag.Host
import LineLexer.Proofs.Grammar.Markup
import LineLexer.Proofs.Grammar.Style
import LineLexer.Proofs.Kind
import LineLexer.Proofs.Scan.Cut
import LineLexer.Proofs.Vocabulary.Dictionary

/-!
# Names that are looked up

The names of tags, the names of at-rules and the names behind colons in selectors are told apart by
what the tables of the vocabulary hold, in any letter case. A tag is named in text content, or by
the closing tag of an embedded language, which is not looked up but is always known
(`flags_of_mem_step`). At-rules are named in selectors only (`exists_atRule_of_mem_step`). So every
name in a line is flagged by the tables (`isUnknown_iff_foldCase_notMem`).
-/

namespace LineLexer

/-- Flags tell that a name is unknown just if it is. -/
@[simp] theorem Flags.isUnknown_ofKnown (known : Bool) : (ofKnown known).isUnknown = !known := by
  cases known <;> decide

/-! ## The names of tags -/

namespace Markup

/-- A name is unknown if the table of elements does not hold it. -/
theorem isUnknown_nameFlags_iff (name : Text) :
    (nameFlags name).isUnknown = true ↔ foldCase name ∉ elementNames.map String.toList := by
  rw [nameFlags, Flags.isUnknown_ofKnown, ← contains_elements_iff, Bool.not_eq_true,
    Bool.not_eq_true']

section

variable {c : Char} {rest : Text} {piece : Piece} {span : Span}

/-- Behind a bracket, the name of a tag is all that its characters go on with. -/
theorem opening_eq_tagStart (h : piece ∈ (opening rest).pieces)
    (hkind : piece.kind = .markupTagName) : ∃ bracket next, opening rest =
      tagStart bracket ((('<' :: rest).drop bracket).takeWhile isTagNameChar) next := by
  revert h
  unfold opening
  split
  · exact fun h => by cases (kind_of_mem_delimited h).symm.trans hkind
  split
  · exact fun h => by cases (kind_of_mem_delimited h).symm.trans hkind
  split
  · exact fun h => by cases (kind_of_mem_delimited h).symm.trans hkind
  split
  · exact fun _ => ⟨2, _, rfl⟩
  split
  · exact fun _ => ⟨1, _, rfl⟩
  · exact fun h => by cases (kind_of_mem_one h).symm.trans hkind

/-- Markup takes the name of a tag behind a bracket. -/
theorem move_eq_opening {afterOperator : Bool} {state : MarkupState}
    (h : piece ∈ (move afterOperator state c rest).pieces) (hkind : piece.kind = .markupTagName) :
    c = '<' ∧ move afterOperator state c rest = opening rest := by
  obtain rfl := eq_content_of_mem h (by rw [hkind]; decide)
  rw [move] at h ⊢
  rcases content_cases c rest with
    ⟨-, hmove⟩ | ⟨-, -, width, hmove⟩ | ⟨htag, -⟩ | ⟨-, -, -, hmove⟩
  · rw [hmove] at h
    cases (kind_of_mem_one h).symm.trans hkind
  · rw [hmove] at h
    cases (kind_of_mem_one h).symm.trans hkind
  · obtain ⟨more, hmore⟩ := htag.exists_cons
    obtain ⟨rfl, rfl⟩ := List.cons.inj hmore
    exact ⟨rfl, rfl⟩
  · rw [hmove] at h
    cases (kind_of_mem_one h).symm.trans hkind

/-- The name that starts a tag has the flags of its own text. -/
theorem flags_of_mem_tagStart {bracket : Nat} {text : Text} {next : MarkupState} :
    let name := (text.drop bracket).takeWhile isTagNameChar
    ∀ span ∈ carve (tagStart bracket name next).pieces text,
      span.kind = .markupTagName → span.flags = nameFlags span.text := by
  refine forall_carve_cons (fun hkind => ?_) (forall_carve_cons (fun _ => ?_) (by simp [carve]))
  · cases hkind
  · exact congrArg nameFlags (take_runLength isTagNameChar (text.drop bracket)).symm

/-- The name of a tag that markup takes has the flags of its own text. -/
theorem flags_of_mem_move {afterOperator : Bool} {state : MarkupState}
    (h : span ∈ carve (move afterOperator state c rest).pieces (c :: rest))
    (hkind : span.kind = .markupTagName) : span.flags = nameFlags span.text := by
  obtain ⟨piece, hpiece, hpieceKind, -⟩ := exists_piece_of_mem_carve h
  have hpieceKind := hpieceKind.symm.trans hkind
  obtain ⟨rfl, hmove⟩ := move_eq_opening hpiece hpieceKind
  rw [hmove] at h hpiece
  obtain ⟨bracket, next, hopening⟩ := opening_eq_tagStart hpiece hpieceKind
  rw [hopening] at h
  exact flags_of_mem_tagStart span h hkind

end

end Markup

/-- The name in the closing tag of an embedded language is that of a known element. -/
theorem flags_of_mem_closeElement {language : Language} (hl : language ≠ .markup) {text : Text}
    (htag : atClosingTag language.closingTag text = true) {span : Span}
    (h : span ∈ carve (closeElement language.closingTag).pieces text)
    (hkind : span.kind = .markupTagName) : span.flags = Markup.nameFlags span.text := by
  obtain ⟨name, hfold, hcarve⟩ := carve_closeElement (Language.element_ne_nil hl) htag
  have hname : elements.contains name = true := by
    rw [← elements.contains_foldCase name, hfold, elements.contains_foldCase, contains_element hl]
  simp only [Language.closingTag, hcarve, List.mem_cons, List.not_mem_nil, or_false] at h
  rcases h with rfl | rfl
  · cases hkind
  · change Flags.empty = Markup.nameFlags name
    rw [Markup.nameFlags, hname]
    rfl

/-- Every name of a tag that is cut off has the flags of its own text. -/
theorem flags_of_mem_step {past : Recall} {state : ResumeState} {c : Char} {rest : Text}
    {span : Span} (h : span ∈ carve (step past state c rest).pieces (c :: rest))
    (hkind : span.kind = .markupTagName) : span.flags = Markup.nameFlags span.text := by
  have hkinds : ∀ {language : Language}, language ≠ .markup →
      Kind.markupTagName ∉ language.kinds := by
    intro language
    cases language <;> decide
  -- An embedded language has no names of tags, so it cuts one off with its closing tag only.
  have hleaves : state.language ≠ .markup → ¬(step past state c rest).StaysIn state.language := by
    intro hstate hstays
    have hmem := ((step_isRegularAt past state c rest).isRegular span h).kind_mem
    rw [hstays.language_of_mem_carve h, hkind] at hmem
    exact hkinds hstate hmem
  cases state with
  | markup state => exact Markup.flags_of_mem_move h hkind
  | style state =>
    rcases Style.move_language state c rest with hmove | ⟨-, htag, hmove⟩
    · exact absurd hmove (hleaves fun h => by cases h)
    · rw [step, hmove, ← Language.closingTag_style] at h
      rw [← Language.closingTag_style] at htag
      exact flags_of_mem_closeElement (by decide) htag h hkind
  | script state =>
    rcases Script.move_language (Script.regexMayFollow past.script) state c rest with
      hmove | ⟨-, htag, hmove⟩
    · exact absurd hmove (hleaves fun h => by cases h)
    · rw [step, hmove, ← Language.closingTag_script] at h
      rw [← Language.closingTag_script] at htag
      exact flags_of_mem_closeElement (by decide) htag h hkind

/-! ## The names of at-rules -/

namespace Style

section

variable {c : Char} {rest : Text} {context : StyleContext}

/-- A move takes no name of an at-rule. -/
def NamesNoAtRule (move : Move) : Prop :=
  ∀ piece ∈ move.pieces, piece.kind ≠ .regex

/-- A piece of code of another kind is no name of an at-rule. -/
theorem namesNoAtRule_code {kind : Kind} {width : Nat} {next : StyleContext}
    (hkind : kind ≠ .regex) : NamesNoAtRule (code kind width next) := by
  intro piece hpiece
  rw [List.mem_singleton.1 hpiece]
  exact hkind

/-- A choice between moves names no at-rule if neither does. -/
theorem NamesNoAtRule.ite {p : Prop} [Decidable p] {first second : Move}
    (hfirst : NamesNoAtRule first) (hsecond : NamesNoAtRule second) :
    NamesNoAtRule (if p then first else second) := by
  split
  · exact hfirst
  · exact hsecond

/-- A name or a call names no at-rule. -/
theorem namesNoAtRule_wordOrCall (rest : Text) (context : StyleContext) :
    NamesNoAtRule (wordOrCall rest context) := by
  simp only [wordOrCall]
  split
  · exact namesNoAtRule_code (by decide)
  · exact namesNoAtRule_code (by decide)

/-- A number, a name or any other character names no at-rule. -/
theorem namesNoAtRule_value (c : Char) (rest : Text) (context : StyleContext) :
    NamesNoAtRule (match numberWidth? (c :: rest) with
      | some width => number width (c :: rest) context
      | none => if isNameChar c then wordOrCall rest context else code .identifier 1 context) := by
  split
  · exact namesNoAtRule_code (by decide)
  · exact .ite (namesNoAtRule_wordOrCall rest context) (namesNoAtRule_code (by decide))

/-- In a selector, all but the at sign names no at-rule. -/
theorem namesNoAtRule_selector (hc : c ≠ '@') (rest : Text) :
    NamesNoAtRule (selector c rest) := by
  rw [selector, if_neg hc]
  simp only [pseudo]
  repeat' apply NamesNoAtRule.ite
  all_goals exact namesNoAtRule_code (by decide)

/-- In the prelude of an at-rule no other one is named. -/
theorem namesNoAtRule_atRulePrelude (body : AtRuleBody) (c : Char) (rest : Text) :
    NamesNoAtRule (atRulePrelude body c rest) := by
  unfold atRulePrelude
  repeat' apply NamesNoAtRule.ite
  all_goals first
    | exact namesNoAtRule_value c rest _
    | exact namesNoAtRule_code (by decide)

/-- Left of a colon no at-rule is named. -/
theorem namesNoAtRule_propertyKey (c : Char) (rest : Text) :
    NamesNoAtRule (propertyKey c rest) := by
  unfold propertyKey
  repeat' apply NamesNoAtRule.ite
  all_goals exact namesNoAtRule_code (by decide)

/-- Right of a colon no at-rule is named. -/
theorem namesNoAtRule_propertyValue (c : Char) (rest : Text) :
    NamesNoAtRule (propertyValue c rest) := by
  unfold propertyValue
  repeat' apply NamesNoAtRule.ite
  all_goals first
    | exact namesNoAtRule_value c rest _
    | exact namesNoAtRule_code (by decide)

/-- The code of a style sheet names an at-rule at an at sign in a selector only. -/
theorem namesNoAtRule_contextMove (hother : ¬(context = .selector ∧ c = '@')) (rest : Text) :
    NamesNoAtRule (contextMove context c rest) := by
  unfold contextMove
  split
  · exact namesNoAtRule_code (by decide)
  split
  · intro piece hpiece
    rw [kind_of_mem_comment hpiece]
    decide
  split
  · simp [NamesNoAtRule, closeElement]
  split
  next quote _ =>
    intro piece hpiece
    rw [kind_of_mem_literal hpiece]
    cases quote <;> decide
  cases context with
  | selector => exact namesNoAtRule_selector (fun hc => hother ⟨rfl, hc⟩) rest
  | atRule body => exact namesNoAtRule_atRulePrelude body c rest
  | propertyKey => exact namesNoAtRule_propertyKey c rest
  | propertyValue => exact namesNoAtRule_propertyValue c rest

/-- At an at sign in a selector, the sign and the name are taken. -/
theorem step_atKeyword (past : Recall) (rest : Text) :
    step past (.style (.code .selector)) '@' rest =
      ⟨[⟨.regex, runLength isNameChar rest + 1, .style,
          .ofKnown (atRules.find? (rest.takeWhile isNameChar)).isSome⟩],
        .style (.code (.atRule (bodyOfName (rest.takeWhile isNameChar))))⟩ := by
  rw [← getD_find?_atRules, Nat.add_comm]
  rfl

/-- The name of an at-rule that is cut off in a style sheet stands behind its at sign. -/
theorem exists_atRule_of_mem_step {past : Recall} {state : ResumeState} {span : Span}
    (h : span ∈ carve (step past state c rest).pieces (c :: rest))
    (hlanguage : span.language = .style) (hkind : span.kind = .regex) :
    ∃ name, span.text = '@' :: name ∧ span.flags = .ofKnown (atRules.find? name).isSome := by
  obtain ⟨piece, hpiece, hpieceKind, -⟩ := exists_piece_of_mem_carve h
  have hpieceKind := hpieceKind.symm.trans hkind
  have hstate : state.language = .style := by
    rcases language_of_mem_step h with hmarkup | ⟨hsame, -⟩
    · rw [hmarkup] at hlanguage
      cases hlanguage
    · exact hsame.symm.trans hlanguage
  cases state with
  | markup state => cases hstate
  | script state => cases hstate
  | style state =>
    cases state with
    | comment context => cases (kind_of_mem_comment hpiece).symm.trans hpieceKind
    | literal quote context =>
      have hquote := (kind_of_mem_literal hpiece).symm.trans hpieceKind
      cases quote <;> cases hquote
    | code context =>
      by_cases hat : context = .selector ∧ c = '@'
      · obtain ⟨rfl, rfl⟩ := hat
        rw [step_atKeyword, carve_singleton (Nat.succ_pos _) (List.cons_ne_nil _ _),
          List.mem_singleton] at h
        rw [h, take_runLength_succ]
        exact ⟨_, rfl, rfl⟩
      · exact absurd hpieceKind (namesNoAtRule_contextMove hat rest piece hpiece)

/-- An at-rule is unknown if the table does not hold its name. -/
theorem isUnknown_atRule_iff (name : Text) :
    (Flags.ofKnown (atRules.find? name).isSome).isUnknown = true ↔
      foldCase name ∉ atRuleBodies.map fun entry => entry.1.toList := by
  rw [Flags.isUnknown_ofKnown, ← isSome_find?_atRules_iff, Bool.not_eq_true, Bool.not_eq_true']

/-- At an at sign in a selector, the name of an at-rule is cut off, and its prelude follows. -/
theorem cutsOff_atKeyword (scope : LinkScope) (rest : Text) :
    CutsOff scope (.style (.code .selector)) ('@' :: rest)
      [⟨.regex, .style, '@' :: rest.takeWhile isNameChar,
        .ofKnown (atRules.find? (rest.takeWhile isNameChar)).isSome⟩]
      (.style (.code (.atRule (bodyOfName (rest.takeWhile isNameChar))))) := by
  have hcut := cutsOff_of_step_singleton scope (step_atKeyword · rest) (Nat.succ_pos _)
    (by cases scope <;> rfl)
  rwa [take_runLength_succ] at hcut

/-! ## The names behind colons -/

/-- One or two colons before a text, of which one is all that there are. -/
def AreColons (colons rest : Text) : Prop :=
  colons = [':'] ∧ rest.head? ≠ some ':' ∨ colons = [':', ':']

/-- Colons in a selector are taken together with the name behind them if it is known. -/
theorem step_colons {colons rest : Text} (h : AreColons colons rest) :
    ∃ tail, colons ++ rest = ':' :: tail ∧
      ∀ past, step past (.style (.code .selector)) ':' tail =
        if pseudos.contains (rest.takeWhile isNameChar) then
          code .reservedWord (colons.length + runLength isNameChar rest) .selector
        else code .operator colons.length .selector := by
  rcases h with ⟨rfl, hrest⟩ | rfl
  · refine ⟨rest, rfl, fun _ => ?_⟩
    change pseudo rest = _
    simp [pseudo, hrest, runLength]
  · refine ⟨':' :: rest, rfl, fun _ => ?_⟩
    change pseudo (':' :: rest) = _
    simp [pseudo, runLength]

/-- Colons in a selector are cut off with the name behind them if it is known, and alone if not. -/
theorem cutsOff_colons (scope : LinkScope) {colons rest : Text} (h : AreColons colons rest) :
    CutsOff scope (.style (.code .selector)) (colons ++ rest)
      [if pseudos.contains (rest.takeWhile isNameChar) then
          ⟨.reservedWord, .style, colons ++ rest.takeWhile isNameChar, .empty⟩
        else ⟨.operator, .style, colons, .empty⟩] (.style (.code .selector)) := by
  obtain ⟨tail, htext, hstep⟩ := step_colons h
  have hpos : 0 < colons.length := by
    rcases h with ⟨rfl, -⟩ | rfl <;> decide
  by_cases hname : pseudos.contains (rest.takeWhile isNameChar) = true
  · simp only [hname, if_true] at hstep ⊢
    have hcut := cutsOff_of_step_singleton scope hstep (Nat.add_pos_left hpos _)
      (by cases scope <;> rfl)
    rwa [← htext, List.take_length_add_append, take_runLength] at hcut
  · simp only [hname] at hstep ⊢
    have hcut := cutsOff_of_step_singleton scope hstep hpos (by cases scope <;> rfl)
    rwa [← htext, List.take_left] at hcut

end

end Style

/-! ## Tokens -/

section

variable {scope : LinkScope} {line : Text} {base : Nat} {start : ResumeState} {token : Token}

/-- A token of a kind that is not searched for links is a span that a move has cut off. -/
theorem exists_step_of_mem (h : token ∈ (tokenize scope line base start).tokens)
    (hscope : scope.appliesTo token.kind = false) :
    ∃ past state c rest, token.span ∈ carve (step past state c rest).pieces (c :: rest) := by
  obtain ⟨front, span, back, hspans, hpart⟩ := exists_span_of_mem h
  rw [(kind_of_mem_placeFrom_split hpart).1] at hscope
  obtain ⟨earlier, first, later, here, c, rest, -, hcarve, -⟩ :=
    exists_reaches .start start line span back front hspans
  refine ⟨earlier.foldl Recall.note .start, here, c, rest, ?_⟩
  rw [hcarve, eq_place_of_mem_placeFrom_split hscope hpart]
  exact List.mem_append_right _ List.mem_cons_self

/-- The name of a tag is unknown just if the table of elements does not hold it. -/
theorem isUnknown_iff_of_tagName (h : token ∈ (tokenize scope line base start).tokens)
    (hkind : token.kind = .markupTagName) : token.flags.isUnknown = true ↔
      foldCase token.text ∉ elementNames.map String.toList := by
  obtain ⟨past, state, c, rest, hmem⟩ := exists_step_of_mem h (by rw [hkind]; cases scope <;> rfl)
  have hflags : token.flags = Markup.nameFlags token.text := flags_of_mem_step hmem hkind
  rw [hflags, Markup.isUnknown_nameFlags_iff]

/-- The name of an at-rule is unknown just if the table of at-rules does not hold it. -/
theorem exists_atRule (h : token ∈ (tokenize scope line base start).tokens)
    (hlanguage : token.language = .style) (hkind : token.kind = .regex) :
    ∃ name, token.text = '@' :: name ∧ (token.flags.isUnknown = true ↔
      foldCase name ∉ atRuleBodies.map fun entry => entry.1.toList) := by
  obtain ⟨past, state, c, rest, hmem⟩ := exists_step_of_mem h (by rw [hkind]; cases scope <;> rfl)
  obtain ⟨name, htext, hflags⟩ := Style.exists_atRule_of_mem_step hmem hlanguage hkind
  have hflags : token.flags = .ofKnown (atRules.find? name).isSome := hflags
  exact ⟨name, htext, by rw [hflags, Style.isUnknown_atRule_iff]⟩

end

open Style

/-- A dictionary holds a name if the name in small letters is in its table, and this decides on all
names. The name of a tag, of whatever tag, is unknown just if the table of elements does not hold
it. The name of an at-rule is unknown just if the table of at-rules does not hold it, and behind it
comes the prelude of an at-rule with the block that the table has for it, or of rules if it has
none. Colons in a selector are one token with all of the name behind them if it is in the table, and
an operator on their own if not. -/
theorem isUnknown_iff_foldCase_notMem :
    (∀ name, (elements.contains name = true ↔ foldCase name ∈ elementNames.map String.toList) ∧
      (pseudos.contains name = true ↔ foldCase name ∈ pseudoNames.map String.toList) ∧
      atRules.find? name =
        (atRuleBodies.map fun entry => (entry.1.toList, entry.2)).lookup (foldCase name)) ∧
    (∀ scope line base start, ∀ token ∈ (tokenize scope line base start).tokens,
      (token.kind = .markupTagName → (token.flags.isUnknown = true ↔
        foldCase token.text ∉ elementNames.map String.toList)) ∧
      (token.language = .style → token.kind = .regex → ∃ name, token.text = '@' :: name ∧
        (token.flags.isUnknown = true ↔
          foldCase name ∉ atRuleBodies.map fun entry => entry.1.toList))) ∧
    (∀ scope rest,
      let name := rest.takeWhile isNameChar
      ∃ flags : Flags, (flags.isUnknown = true ↔
          foldCase name ∉ atRuleBodies.map fun entry => entry.1.toList) ∧
        CutsOff scope (.style (.code .selector)) ('@' :: rest)
          [⟨.regex, .style, '@' :: name, flags⟩] (.style (.code (.atRule (bodyOfName name))))) ∧
    ∀ scope colons rest, AreColons colons rest →
      let name := rest.takeWhile isNameChar
      (foldCase name ∈ pseudoNames.map String.toList →
        CutsOff scope (.style (.code .selector)) (colons ++ rest)
          [⟨.reservedWord, .style, colons ++ name, .empty⟩] (.style (.code .selector))) ∧
      (foldCase name ∉ pseudoNames.map String.toList →
        CutsOff scope (.style (.code .selector)) (colons ++ rest)
          [⟨.operator, .style, colons, .empty⟩] (.style (.code .selector))) := by
  refine ⟨fun name => ?_, fun scope line base start token htoken => ?_, fun scope rest => ?_, ?_⟩
  · exact ⟨contains_elements_iff name, contains_pseudos_iff name,
      Dictionary.find?_ofList isSorted_atRules name⟩
  · exact ⟨isUnknown_iff_of_tagName htoken, exists_atRule htoken⟩
  · exact ⟨_, isUnknown_atRule_iff _, cutsOff_atKeyword scope rest⟩
  · intro scope colons rest h name
    have hcut := cutsOff_colons scope h
    constructor
    · intro hname
      rwa [if_pos ((contains_pseudos_iff name).2 hname)] at hcut
    · intro hname
      rwa [if_neg fun hknown => hname ((contains_pseudos_iff name).1 hknown)] at hcut

/-- The closing tag of a style sheet in capitals, an at-rule with a name that only starts like that
of a known one, and a name behind colons in mixed letters and one that is unknown. -/
theorem isUnknown_iff_foldCase_notMem_of_capitals :
    let closing : Token := ⟨.markupTagName, .markup, 2, "STYLE".toList, .empty⟩
    let atRule : Token := ⟨.regex, .style, 0, "@media-2".toList, .ofKnown false⟩
    (closing ∈ (tokenize .comments "</STYLE>".toList 0 (.style (.code .selector))).tokens ∧
      closing.kind = .markupTagName ∧ (closing.flags.isUnknown = true ↔
        foldCase closing.text ∉ elementNames.map String.toList)) ∧
    (atRule ∈ (tokenize .comments "@media-2 x".toList 0 (.style (.code .selector))).tokens ∧
      atRule.language = .style ∧ atRule.kind = .regex ∧ ∃ name, atRule.text = '@' :: name ∧
        (atRule.flags.isUnknown = true ↔
          foldCase name ∉ atRuleBodies.map fun entry => entry.1.toList)) ∧
    (AreColons "::".toList "First-Line,".toList ∧
      foldCase ("First-Line,".toList.takeWhile isNameChar) ∈ pseudoNames.map String.toList ∧
      CutsOff .comments (.style (.code .selector)) "::First-Line,".toList
        [⟨.reservedWord, .style, "::First-Line".toList, .empty⟩] (.style (.code .selector))) ∧
    (AreColons ":".toList "hover2,".toList ∧
      foldCase ("hover2,".toList.takeWhile isNameChar) ∉ pseudoNames.map String.toList ∧
      CutsOff .comments (.style (.code .selector)) ":hover2,".toList
        [⟨.operator, .style, ":".toList, .empty⟩] (.style (.code .selector))) := by
  intro closing atRule
  refine ⟨?_, ?_, ?_, ?_⟩
  · have hmem : closing ∈
        (tokenize .comments "</STYLE>".toList 0 (.style (.code .selector))).tokens := by
      decide +kernel
    exact ⟨hmem, rfl, (isUnknown_iff_foldCase_notMem.2.1 _ _ _ _ closing hmem).1 rfl⟩
  · have hmem : atRule ∈
        (tokenize .comments "@media-2 x".toList 0 (.style (.code .selector))).tokens := by
      decide +kernel
    exact ⟨hmem, rfl, rfl, (isUnknown_iff_foldCase_notMem.2.1 _ _ _ _ atRule hmem).2 rfl rfl⟩
  · have hcolons : AreColons "::".toList "First-Line,".toList := .inr rfl
    have hname : foldCase ("First-Line,".toList.takeWhile isNameChar) ∈
        pseudoNames.map String.toList := by
      decide +kernel
    exact ⟨hcolons, hname, (isUnknown_iff_foldCase_notMem.2.2.2 .comments _ _ hcolons).1 hname⟩
  · have hcolons : AreColons ":".toList "hover2,".toList := .inl ⟨rfl, by decide⟩
    have hname : foldCase ("hover2,".toList.takeWhile isNameChar) ∉
        pseudoNames.map String.toList := by
      decide +kernel
    exact ⟨hcolons, hname, (isUnknown_iff_foldCase_notMem.2.2.2 .comments _ _ hcolons).2 hname⟩

end LineLexer
