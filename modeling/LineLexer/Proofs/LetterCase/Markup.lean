import LineLexer.Grammar.Markup
import LineLexer.Proofs.Text.LetterCase

/-!
# Letter case in markup

No rule of markup tells a text from the same text in small letters: names are looked up and runs are
measured without heeding the case, and delimiters are no letters. So each move is the same
(`move_foldCase`).
-/

namespace LineLexer.Markup

/-! ## Classes of characters -/

/-- A letter goes on with plain text in both cases. -/
theorem caseBlind_isTextChar : CaseBlind isTextChar :=
  caseBlind_of_letters (by decide)

/-- A letter starts a tag name in both cases. -/
theorem caseBlind_isNameStart : CaseBlind isNameStart :=
  caseBlind_of_letters (by decide)

/-- A letter goes on with an attribute in both cases. -/
theorem caseBlind_isAttributeChar : CaseBlind isAttributeChar :=
  caseBlind_of_letters (by decide)

/-- A letter goes on with a word in an end tag in both cases. -/
theorem caseBlind_isEndTagChar : CaseBlind isEndTagChar :=
  caseBlind_of_letters (by decide)

/-! ## Constructs that run to a delimiter -/

/-- A construct with a delimiter without letters is taken alike in small letters. -/
theorem delimited_foldCase {delimiter : Text} (hne : delimiter ≠ [])
    (h : AllCaseless delimiter) (kind : Kind) (stay : MarkupState) (lead : Nat) (body : Text) :
    delimited delimiter kind stay lead (foldCase body) =
      delimited delimiter kind stay lead body := by
  rw [delimited, widthThrough?_foldCase hne h, length_foldCase, delimited]

/-- A comment is taken alike in small letters. -/
theorem comment_foldCase (lead : Nat) (body : Text) :
    comment lead (foldCase body) = comment lead body :=
  delimited_foldCase (by decide) (by decide) ..

/-- A declaration is taken alike in small letters. -/
theorem doctype_foldCase (lead : Nat) (body : Text) :
    doctype lead (foldCase body) = doctype lead body :=
  delimited_foldCase (by decide) (by decide) ..

/-- A processing instruction is taken alike in small letters. -/
theorem instruction_foldCase (lead : Nat) (body : Text) :
    instruction lead (foldCase body) = instruction lead body :=
  delimited_foldCase (by decide) (by decide) ..

/-- A quoted value is taken alike in small letters. -/
theorem attributeValue_foldCase (quote : Quote) (tag : TagKind) (lead : Nat) (body : Text) :
    attributeValue quote tag lead (foldCase body) = attributeValue quote tag lead body := by
  have hquote : AllCaseless [quote.char] := by cases quote <;> decide
  rw [attributeValue, widthThrough?_foldCase (by simp) hquote, length_foldCase, attributeValue]

/-! ## Text content -/

/-- Blanks are taken alike in small letters. -/
theorem blanks_foldCase (rest : Text) (next : MarkupState) :
    blanks (foldCase rest) next = blanks rest next := by
  rw [blanks, runLength_foldCase caseBlind_isBlank, blanks]

/-- Plain text is taken alike in small letters. -/
theorem textRun_foldCase (rest : Text) : textRun (foldCase rest) = textRun rest := by
  rw [textRun, runLength_foldCase caseBlind_isTextChar, textRun]

/-- A numeric reference is measured alike in small letters. -/
theorem numericEntityWidth?_foldCase {p : Char → Bool} (hp : CaseBlind p) (lead : Nat)
    (text : Text) :
    numericEntityWidth? p lead (foldCase text) = numericEntityWidth? p lead text := by
  simp (disch := decide) only [numericEntityWidth?, runLength_foldCase hp, drop_foldCase,
    head?_foldCase_eq_some]

/-- A named reference is measured alike in small letters. -/
theorem namedEntityWidth?_foldCase (text : Text) :
    namedEntityWidth? (foldCase text) = namedEntityWidth? text := by
  simp (disch := decide) only [namedEntityWidth?, runLength_foldCase caseBlind_isAlphanum,
    drop_foldCase, any_head?_foldCase caseBlind_isAlpha, head?_foldCase_beq_some]

/-- A reference is measured alike in small letters: the mark of hexadecimal digits is taken in both
cases. -/
theorem entityWidth?_foldCase (text : Text) : entityWidth? (foldCase text) = entityWidth? text := by
  have hmark : ∀ text : Text,
      ((foldCase text).head? = some 'x' ∨ (foldCase text).head? = some 'X') ↔
        (text.head? = some 'x' ∨ text.head? = some 'X') := by
    have hblind : CaseBlind fun c => c == 'x' || c == 'X' := caseBlind_of_letters (by decide)
    have hany : ∀ text : Text, (text.head? = some 'x' ∨ text.head? = some 'X') ↔
        text.head?.any (fun c => c == 'x' || c == 'X') = true := by
      intro text
      cases text <;> simp
    intro text
    rw [hany, hany, any_head?_foldCase hblind]
  simp (disch := decide) only [entityWidth?, drop_foldCase, head?_foldCase_eq_some, hmark,
    numericEntityWidth?_foldCase caseBlind_isHexDigit,
    numericEntityWidth?_foldCase caseBlind_isDigit, namedEntityWidth?_foldCase]

/-- The start of a tag is the same with its name in small letters. -/
theorem tagStart_foldCase (bracket : Nat) (name : Text) (next : MarkupState) :
    tagStart bracket (foldCase name) next = tagStart bracket name next := by
  rw [tagStart, length_foldCase, nameFlags, Dictionary.contains_foldCase, tagStart, nameFlags]

/-- A name in small letters is that of the same element. -/
theorem ofName_foldCase (name : Text) : TagKind.ofName (foldCase name) = TagKind.ofName name := by
  rw [TagKind.ofName, foldCase_foldCase, TagKind.ofName]

/-- What a bracket opens is taken alike in small letters. -/
theorem opening_foldCase (rest : Text) : opening (foldCase rest) = opening rest := by
  simp (disch := decide) only [opening, isPrefixOf_foldCase, drop_foldCase, head?_foldCase_eq_some,
    any_head?_foldCase caseBlind_isNameStart, takeWhile_foldCase caseBlind_isTagNameChar,
    comment_foldCase, doctype_foldCase, instruction_foldCase, tagStart_foldCase, ofName_foldCase,
    textRun_foldCase]

/-- Text content is taken alike in small letters. -/
theorem content_foldCase (c : Char) (rest : Text) :
    content c.toLower (foldCase rest) = content c rest := by
  simp (disch := decide) only [content, caseBlind_isBlank c, toLower_eq_iff, blanks_foldCase,
    opening_foldCase, entityWidth?_foldCase, textRun_foldCase]

/-! ## Tags -/

/-- A start tag is taken alike in small letters. -/
theorem startTag_foldCase (afterOperator : Bool) (tag : TagKind) (c : Char) (rest : Text) :
    startTag afterOperator tag c.toLower (foldCase rest) = startTag afterOperator tag c rest := by
  simp (disch := decide) only [startTag, caseBlind_isBlank c, toLower_eq_iff, blanks_foldCase,
    head?_foldCase_eq_some, ofChar?_toLower, attributeValue_foldCase,
    runLength_foldCase caseBlind_isAttributeChar]

/-- An end tag is taken alike in small letters. -/
theorem endTag_foldCase (c : Char) (rest : Text) :
    endTag c.toLower (foldCase rest) = endTag c rest := by
  simp (disch := decide) only [endTag, caseBlind_isBlank c, toLower_eq_iff, blanks_foldCase,
    runLength_foldCase caseBlind_isEndTagChar]

/-- A move of markup is the same in small letters. -/
theorem move_foldCase (afterOperator : Bool) (state : MarkupState) (c : Char) (rest : Text) :
    move afterOperator state c.toLower (foldCase rest) = move afterOperator state c rest := by
  cases state with
  | content => exact content_foldCase c rest
  | startTag tag => exact startTag_foldCase afterOperator tag c rest
  | endTag => exact endTag_foldCase c rest
  | attributeValue quote tag => exact attributeValue_foldCase quote tag 0 (c :: rest)
  | comment => exact comment_foldCase 0 (c :: rest)
  | doctype => exact doctype_foldCase 0 (c :: rest)
  | instruction => exact instruction_foldCase 0 (c :: rest)

end LineLexer.Markup
