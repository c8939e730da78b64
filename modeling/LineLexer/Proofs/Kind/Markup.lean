import LineLexer.Proofs.Kind.Basic

/-!
# Regular moves of markup

Every move of markup is regular (`Markup.move_isRegularAt`). What runs to a delimiter is of a kind
that may hold blanks, and all else is made of name characters, text characters and references, which
hold none. Of its names only those of tags are looked up.
-/

namespace LineLexer.Markup

/-! ## Text content -/

/-- Plain text that starts with no blank holds none. -/
theorem isRegularAt_textRun {c : Char} (hc : isNonBlank c = true) (rest : Text) :
    (textRun rest).IsRegularAt (c :: rest) := by
  have htext : IsStretch isNonBlank rest (runLength isTextChar rest) :=
    isStretch_runLength (isNonBlank_of_class (by decide)) rest
  exact Move.isRegularAt_of_isStretch (by decide) (by decide) (htext.cons hc)

/-- What runs to a delimiter is regular if its kind may hold blanks. -/
theorem isRegularAt_delimited {kind : Kind} (hkind : kind ∈ Language.markup.kinds)
    (hsolid : kind ≠ .whitespace) (hblanks : Language.markup.mayHoldBlanks kind = true)
    (delimiter : Text) (stay : MarkupState) (lead : Nat) (body text : Text) :
    (delimited delimiter kind stay lead body).IsRegularAt text := by
  unfold delimited
  split
  · exact Move.isRegularAt_of_mayHoldBlanks hkind hsolid hblanks
  · exact Move.isRegularAt_of_mayHoldBlanks hkind hsolid hblanks

/-- A comment is regular. -/
theorem isRegularAt_comment (lead : Nat) (body text : Text) :
    (comment lead body).IsRegularAt text :=
  isRegularAt_delimited (by decide) (by decide) (by decide) ..

/-- A declaration is regular. -/
theorem isRegularAt_doctype (lead : Nat) (body text : Text) :
    (doctype lead body).IsRegularAt text :=
  isRegularAt_delimited (by decide) (by decide) (by decide) ..

/-- A processing instruction is regular. -/
theorem isRegularAt_instruction (lead : Nat) (body text : Text) :
    (instruction lead body).IsRegularAt text :=
  isRegularAt_delimited (by decide) (by decide) (by decide) ..

/-- A quoted attribute value is regular. -/
theorem isRegularAt_attributeValue (quote : Quote) (tag : TagKind) (lead : Nat) (body text : Text) :
    (attributeValue quote tag lead body).IsRegularAt text := by
  unfold attributeValue
  split
  · exact Move.isRegularAt_of_mayHoldBlanks (by decide) (by decide) (by decide)
  · exact Move.isRegularAt_of_mayHoldBlanks (by decide) (by decide) (by decide)

/-- The start of a tag is regular: neither its bracket nor its name holds a blank. -/
theorem isRegularAt_tagStart {text : Text} {bracket : Nat}
    (hbracket : IsStretch isNonBlank text bracket) (next : MarkupState) :
    (tagStart bracket ((text.drop bracket).takeWhile isTagNameChar) next).IsRegularAt text := by
  have hname : IsStretch isNonBlank (text.drop bracket)
      (runLength isTagNameChar (text.drop bracket)) :=
    isStretch_runLength (isNonBlank_of_class (by decide)) _
  apply Move.isRegularAt_pair
  · exact Piece.isRegularAt_of_isStretch (by decide) (by decide) hbracket
  · exact Piece.isRegularAt_of_looksUp _ (by decide) (by decide) (by decide) hname
  · nofun
  · nofun

/-- What a bracket opens is regular. -/
theorem isRegularAt_opening (rest : Text) : (opening rest).IsRegularAt ('<' :: rest) := by
  have hbracket : IsStretch isNonBlank ('<' :: rest) 1 := isStretch_one rfl (by decide)
  unfold opening
  split
  · exact isRegularAt_comment ..
  split
  · exact isRegularAt_doctype ..
  split
  · exact isRegularAt_instruction ..
  split
  next h =>
    have hslash : IsStretch isNonBlank rest 1 := isStretch_one h.1 (by decide)
    exact isRegularAt_tagStart (hslash.cons (by decide)) .endTag
  split
  · exact isRegularAt_tagStart hbracket _
  · exact isRegularAt_textRun (by decide) rest

/-- A move in text content is regular. -/
theorem isRegularAt_content (c : Char) (rest : Text) :
    (content c rest).IsRegularAt (c :: rest) := by
  unfold content
  split
  next hblank => exact Move.isRegularAt_blanks hblank .markup
  next hblank =>
    have hc : isNonBlank c = true := by simp [isNonBlank, hblank]
    split
    next hbracket =>
      rw [hbracket]
      exact isRegularAt_opening rest
    split
    next hamp =>
      rw [hamp]
      split
      next width hentity =>
        exact Move.isRegularAt_of_isStretch (by decide) (by decide)
          (isStretch_entityWidth? hentity)
      next => exact isRegularAt_textRun (by decide) rest
    · exact isRegularAt_textRun hc rest

/-! ## Tags -/

/-- A move in a start tag is regular. -/
theorem isRegularAt_startTag (afterOperator : Bool) (tag : TagKind) (c : Char) (rest : Text) :
    (startTag afterOperator tag c rest).IsRegularAt (c :: rest) := by
  unfold startTag
  split
  next hblank => exact Move.isRegularAt_blanks hblank .markup
  next hblank =>
    have hc : isNonBlank c = true := by simp [isNonBlank, hblank]
    have hone : IsStretch isNonBlank (c :: rest) 1 := isStretch_one rfl hc
    split
    next hslash =>
      rw [Bool.and_eq_true, decide_eq_true_eq, decide_eq_true_eq] at hslash
      have hbracket : IsStretch isNonBlank rest 1 := isStretch_one hslash.2 (by decide)
      exact Move.isRegularAt_of_isStretch (by decide) (by decide) (hbracket.cons hc)
    split
    · exact Move.isRegularAt_of_isStretch (by decide) (by decide) hone
    split
    · exact Move.isRegularAt_of_isStretch (by decide) (by decide) hone
    split
    · exact Move.isRegularAt_nil
    split
    · exact isRegularAt_attributeValue ..
    · have hword : IsStretch isNonBlank rest (runLength isAttributeChar rest) :=
        isStretch_runLength (isNonBlank_of_class (by decide)) rest
      -- Whether the word is a value or an attribute, its kind is one of markup.
      cases afterOperator
      · exact Move.isRegularAt_of_isStretch (by decide) (by decide) (hword.cons hc)
      · exact Move.isRegularAt_of_isStretch (by decide) (by decide) (hword.cons hc)

/-- A move in an end tag is regular. -/
theorem isRegularAt_endTag (c : Char) (rest : Text) :
    (endTag c rest).IsRegularAt (c :: rest) := by
  unfold endTag
  split
  next hblank => exact Move.isRegularAt_blanks hblank .markup
  next hblank =>
    have hc : isNonBlank c = true := by simp [isNonBlank, hblank]
    split
    · exact Move.isRegularAt_of_isStretch (by decide) (by decide) (isStretch_one rfl hc)
    split
    · exact Move.isRegularAt_nil
    · have hword : IsStretch isNonBlank rest (runLength isEndTagChar rest) :=
        isStretch_runLength (isNonBlank_of_class (by decide)) rest
      exact Move.isRegularAt_of_isStretch (by decide) (by decide) (hword.cons hc)

/-- Every move of markup is regular. -/
theorem move_isRegularAt (afterOperator : Bool) (state : MarkupState) (c : Char) (rest : Text) :
    (move afterOperator state c rest).IsRegularAt (c :: rest) := by
  cases state with
  | content => exact isRegularAt_content c rest
  | startTag tag => exact isRegularAt_startTag afterOperator tag c rest
  | endTag => exact isRegularAt_endTag c rest
  | attributeValue quote tag => exact isRegularAt_attributeValue ..
  | comment => exact isRegularAt_comment ..
  | doctype => exact isRegularAt_doctype ..
  | instruction => exact isRegularAt_instruction ..

end LineLexer.Markup
