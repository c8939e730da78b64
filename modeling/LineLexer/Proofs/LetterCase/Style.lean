import LineLexer.Grammar.Style
import LineLexer.Proofs.Text.LetterCase

/-!
# Letter case in style sheets

No rule of style sheets tells a text from the same text in small letters: pseudo-classes, at-rules,
units and the mark of importance are looked up without heeding the case, and so is the closing tag
that ends code and comments. So each move is the same (`move_foldCase`).
-/

namespace LineLexer.Style

/-! ## Classes of characters -/

/-- A letter goes on with a name in both cases. -/
theorem caseBlind_isNameChar : CaseBlind isNameChar :=
  caseBlind_of_letters (by decide)

/-- A letter is an operator in neither case. -/
theorem caseBlind_isOperatorChar : CaseBlind isOperatorChar :=
  caseBlind_of_letters (by decide)

/-! ## Comments and literals -/

/-- A comment is taken alike in small letters. -/
theorem comment_foldCase (context : StyleContext) (lead : Nat) (body : Text) :
    comment context lead (foldCase body) = comment context lead body := by
  rw [comment, commentWidth?_foldCase, length_foldCase, comment]

/-- The closing quote of a literal stands at the same place in small letters. -/
theorem closingQuoteWidth?_foldCase (quote : Quote) (body : Text) :
    closingQuoteWidth? quote (foldCase body) = closingQuoteWidth? quote body := by
  have hquote : Caseless quote.char := by cases quote <;> decide
  have hescape : Caseless '\\' := by decide
  induction hlen : body.length using Nat.strongRecOn generalizing body with
  | ind n ih =>
    subst hlen
    cases body with
    | nil => rfl
    | cons c rest =>
      have hrest := ih rest.length (by simp) rest rfl
      have hless : (rest.drop 1).length < (c :: rest).length := by
        rw [List.length_drop, List.length_cons]
        omega
      have hmore := ih (rest.drop 1).length hless (rest.drop 1) rfl
      rw [foldCase_cons, closingQuoteWidth?_cons, closingQuoteWidth?_cons, drop_foldCase, hmore,
        hrest]
      simp only [toLower_eq_iff hescape, toLower_eq_iff hquote]

/-- A literal is taken alike in small letters. -/
theorem literal_foldCase (quote : Quote) (context : StyleContext) (lead : Nat) (body : Text) :
    literal quote context lead (foldCase body) = literal quote context lead body := by
  rw [literal, closingQuoteWidth?_foldCase, length_foldCase, literal]

/-! ## Selectors -/

/-- Colons and a name are taken alike in small letters. -/
theorem pseudo_foldCase (rest : Text) : pseudo (foldCase rest) = pseudo rest := by
  simp (disch := decide) only [pseudo, head?_foldCase_eq_some, drop_foldCase,
    takeWhile_foldCase caseBlind_isNameChar, Dictionary.contains_foldCase, length_foldCase]

/-- An at-rule is the same one in small letters. -/
theorem atKeyword_foldCase (rest : Text) : atKeyword (foldCase rest) = atKeyword rest := by
  simp only [atKeyword, takeWhile_foldCase caseBlind_isNameChar, Dictionary.find?_foldCase,
    length_foldCase]

/-- A selector is taken alike in small letters. -/
theorem selector_foldCase (c : Char) (rest : Text) :
    selector c.toLower (foldCase rest) = selector c rest := by
  have hslash : CaseBlind (· == '/') := caseBlind_of_letters (by decide)
  simp (disch := decide) only [selector, toLower_eq_iff, atKeyword_foldCase, pseudo_foldCase,
    runLength_foldCase caseBlind_isNameChar, runLength_foldCase hslash,
    caseBlind_isOperatorChar c, caseBlind_isNameChar c]

/-! ## Values -/

/-- A name or a call is taken alike in small letters. -/
theorem wordOrCall_foldCase (rest : Text) (context : StyleContext) :
    wordOrCall (foldCase rest) context = wordOrCall rest context := by
  simp (disch := decide) only [wordOrCall, runLength_foldCase caseBlind_isNameChar, drop_foldCase,
    head?_foldCase_eq_some]

/-- A sign has the same width in small letters. -/
theorem signWidth_foldCase (text : Text) : signWidth (foldCase text) = signWidth text := by
  simp (disch := decide) only [signWidth, head?_foldCase_eq_some]

/-- Digits are the same in small letters. -/
theorem digitsWidth_foldCase (text : Text) : digitsWidth (foldCase text) = digitsWidth text :=
  runLength_foldCase caseBlind_isDigit text

/-- A fraction has the same width in small letters. -/
theorem fractionWidth_foldCase (text : Text) :
    fractionWidth (foldCase text) = fractionWidth text := by
  simp (disch := decide) only [fractionWidth, head?_foldCase_eq_some, drop_foldCase,
    digitsWidth_foldCase]

/-- A number has the same width in small letters. -/
theorem numberWidth?_foldCase (text : Text) :
    numberWidth? (foldCase text) = numberWidth? text := by
  simp only [numberWidth?, signWidth_foldCase, digitsWidth_foldCase, fractionWidth_foldCase,
    drop_foldCase]

/-- A unit has the same width in small letters. -/
theorem unitWidth_foldCase (text : Text) : unitWidth (foldCase text) = unitWidth text := by
  simp (disch := decide) only [unitWidth, head?_foldCase_eq_some,
    takeWhile_foldCase caseBlind_isAlpha, Dictionary.contains_foldCase, length_foldCase]

/-- A number with its unit is taken alike in small letters. -/
theorem number_foldCase (width : Nat) (text : Text) (context : StyleContext) :
    number width (foldCase text) context = number width text context := by
  rw [number, drop_foldCase, unitWidth_foldCase, number]

/-! ## Contexts -/

/-- The prelude of an at-rule is taken alike in small letters. -/
theorem atRulePrelude_foldCase (body : AtRuleBody) (c : Char) (rest : Text) :
    atRulePrelude body c.toLower (foldCase rest) = atRulePrelude body c rest := by
  simp (disch := decide) only [atRulePrelude, toLower_eq_iff, caseBlind_isOperatorChar c,
    caseBlind_isNameChar c, ← foldCase_cons, numberWidth?_foldCase, number_foldCase,
    wordOrCall_foldCase]

/-- The left side of a declaration is taken alike in small letters. -/
theorem propertyKey_foldCase (c : Char) (rest : Text) :
    propertyKey c.toLower (foldCase rest) = propertyKey c rest := by
  simp (disch := decide) only [propertyKey, toLower_eq_iff, caseBlind_isNameChar c,
    runLength_foldCase caseBlind_isNameChar]

/-- The right side of a declaration is taken alike in small letters. -/
theorem propertyValue_foldCase (c : Char) (rest : Text) :
    propertyValue c.toLower (foldCase rest) = propertyValue c rest := by
  simp (disch := decide) only [propertyValue, toLower_eq_iff, caseBlind_isNameChar c,
    ← foldCase_cons, startsWithFolded_foldCase, any_head?_foldCase caseBlind_isHexDigit,
    runLength_foldCase caseBlind_isHexDigit, numberWidth?_foldCase, number_foldCase,
    wordOrCall_foldCase]

/-- Code of a context is taken alike in small letters. -/
theorem contextMove_foldCase (context : StyleContext) (c : Char) (rest : Text) :
    contextMove context c.toLower (foldCase rest) = contextMove context c rest := by
  simp (disch := decide) only [contextMove, caseBlind_isBlank c, toLower_eq_iff,
    runLength_foldCase caseBlind_isBlank, head?_foldCase_eq_some, drop_foldCase, comment_foldCase,
    ← foldCase_cons, atClosingTag_foldCase, ofChar?_toLower, literal_foldCase, selector_foldCase,
    atRulePrelude_foldCase, propertyKey_foldCase, propertyValue_foldCase]

/-- A move of a style sheet is the same in small letters. -/
theorem move_foldCase (state : StyleState) (c : Char) (rest : Text) :
    move state c.toLower (foldCase rest) = move state c rest := by
  cases state with
  | code context => exact contextMove_foldCase context c rest
  | comment context => exact comment_foldCase context 0 (c :: rest)
  | literal quote context => exact literal_foldCase quote context 0 (c :: rest)

end LineLexer.Style
