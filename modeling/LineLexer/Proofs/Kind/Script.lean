import LineLexer.Proofs.Kind.Basic

/-!
# Regular moves of scripts

Every move of a script is regular (`Script.move_isRegularAt`). Comments, literals, templates with
their interpolations and regular expressions may hold blanks, and words, numbers, operators and
single characters hold none. No name of a script is flagged as unknown.
-/

namespace LineLexer.Script

/-! ## Pieces that may hold blanks -/

/-- A line comment is regular. -/
theorem isRegularAt_lineComment (text other : Text) : (lineComment text).IsRegularAt other :=
  Move.isRegularAt_of_mayHoldBlanks (by decide) (by decide) (by decide)

/-- A comment is regular. -/
theorem isRegularAt_comment (lead : Nat) (body text : Text) :
    (comment lead body).IsRegularAt text := by
  unfold comment
  split
  · exact Move.isRegularAt_of_mayHoldBlanks (by decide) (by decide) (by decide)
  · exact Move.isRegularAt_of_mayHoldBlanks (by decide) (by decide) (by decide)

/-- A quoted literal is regular, whether it passes its checks or not. -/
theorem isRegularAt_literal (quote : Quote) (valid : Bool) (lead : Nat) (body text : Text) :
    (literal quote valid lead body).IsRegularAt text := by
  have hkind : ∀ passes : Bool,
      let kind := if passes then literalKind quote else literalErrorKind quote
      kind ∈ Language.script.kinds ∧ kind ≠ .whitespace ∧
        Language.script.mayHoldBlanks kind = true := by
    cases quote <;> decide
  obtain ⟨hscript, hsolid, hblanks⟩ := hkind ((literalBody quote valid body).valid &&
    (literalBody quote valid body).ending != .unterminated)
  exact Move.isRegularAt_of_mayHoldBlanks hscript hsolid hblanks

/-- An interpolation is regular. -/
theorem isRegularAt_interpolation (depth : Depth) (body text : Text) :
    (interpolation depth body).IsRegularAt text :=
  Move.isRegularAt_of_mayHoldBlanks (by decide) (by decide) (by decide)

/-- The text of a template, with the interpolation that ends it, is regular. -/
theorem isRegularAt_template (valid : Bool) (lead : Nat) (body text : Text) :
    (template valid lead body).IsRegularAt text := by
  have hkind : ∀ valid, templateKind valid ∈ Language.script.kinds ∧
      templateKind valid ≠ .whitespace ∧
      Language.script.mayHoldBlanks (templateKind valid) = true := by
    decide
  obtain ⟨hscript, hsolid, hblanks⟩ := hkind (templateBody valid body).valid
  simp only [template]
  split
  · exact Move.isRegularAt_of_mayHoldBlanks hscript hsolid hblanks
  · exact Move.isRegularAt_of_mayHoldBlanks hscript hsolid hblanks
  · apply Move.isRegularAt_pair
    · exact Piece.isRegularAt_of_mayHoldBlanks hscript hsolid hblanks
    · exact Piece.isRegularAt_of_mayHoldBlanks (by decide) (by decide) (by decide)
    · exact hsolid
    · simp [piece]

/-! ## Pieces without blanks -/

section

variable {c : Char}

/-- One character other than a blank is no blank piece. -/
theorem isRegularAt_one {kind : Kind} (hkind : kind ∈ Language.script.kinds)
    (hsolid : kind ≠ .whitespace) (hc : isNonBlank c = true) (rest : Text) (next : ScriptState) :
    (one kind 1 next).IsRegularAt (c :: rest) :=
  Move.isRegularAt_of_isStretch hkind hsolid (isStretch_one rfl hc)

/-- An operator is regular. -/
theorem isRegularAt_operator (hc : isNonBlank c = true) (rest : Text) :
    (operator (c :: rest)).IsRegularAt (c :: rest) :=
  Move.isRegularAt_of_isStretch (by decide) (by decide) (isStretch_operatorWidth hc rest)

/-- What a slash starts is regular. -/
theorem isRegularAt_slash (regexAllowed : Bool) (rest : Text) :
    (slash regexAllowed rest).IsRegularAt ('/' :: rest) := by
  unfold slash
  split
  · exact isRegularAt_lineComment ..
  split
  · exact isRegularAt_comment ..
  split
  · split
    · exact Move.isRegularAt_of_mayHoldBlanks (by decide) (by decide) (by decide)
    · exact isRegularAt_operator (by decide) rest
  · exact isRegularAt_operator (by decide) rest

/-- A number is regular, word characters glued to it included. -/
theorem isRegularAt_number (c : Char) (rest : Text) :
    (number c rest).IsRegularAt (c :: rest) := by
  have hkinds : ∀ kind ∈ [Kind.literalDecimalInt, .literalHexInt, .literalFloat, .errorNumber],
      kind ∈ Language.script.kinds ∧ kind ≠ .whitespace := by
    decide
  have htext : IsStretch isNonBlank (c :: rest) (number c rest).width := by
    have hnumeral := (isStretch_numeral c rest).mono (isNonBlank_of_class (by decide))
    simp only [number, width_one]
    exact hnumeral.add (isStretch_runLength (isNonBlank_of_class (by decide)) _)
  obtain ⟨kind, width, hkind, hnumber⟩ := exists_number_eq c rest
  rw [hnumber, width_one] at htext
  rw [hnumber]
  exact Move.isRegularAt_of_isStretch (hkinds kind hkind).1 (hkinds kind hkind).2 htext

/-- A word is regular, whatever its kind is. -/
theorem isRegularAt_word (hc : isNonBlank c = true) (rest : Text) :
    (one (Kind.ofWord (c :: rest.takeWhile isWordChar)) (c :: rest.takeWhile isWordChar).length
      .code).IsRegularAt (c :: rest) := by
  have hkinds : ∀ kind ∈ [Kind.identifier, .reservedWord, .reservedWord2, .dataType,
      .literalBoolean, .functionName], kind ∈ Language.script.kinds ∧ kind ≠ .whitespace := by
    decide
  have hrest : IsStretch isNonBlank rest (runLength isWordChar rest) :=
    isStretch_runLength (isNonBlank_of_class (by decide)) rest
  obtain ⟨hkind, hsolid⟩ := hkinds _ (Kind.ofWord_mem (c :: rest.takeWhile isWordChar))
  exact Move.isRegularAt_of_isStretch hkind hsolid (hrest.cons hc)

/-- Code that starts with no blank, comment, literal or closing tag is regular. -/
theorem isRegularAt_plainCode (hc : isNonBlank c = true) (rest : Text) :
    (plainCode c rest).IsRegularAt (c :: rest) := by
  unfold plainCode
  split
  · exact isRegularAt_number c rest
  split
  · exact isRegularAt_one (by decide) (by decide) hc rest _
  split
  · exact isRegularAt_one (by decide) (by decide) hc rest _
  split
  · exact isRegularAt_word hc rest
  split
  · exact isRegularAt_operator hc rest
  · exact isRegularAt_one (by decide) (by decide) hc rest _

/-! ## Moves -/

/-- A move in code is regular. -/
theorem isRegularAt_code (regexAllowed : Bool) (c : Char) (rest : Text) :
    (code regexAllowed c rest).IsRegularAt (c :: rest) := by
  unfold code
  split
  next hblank => exact Move.isRegularAt_blanks hblank .script
  next hblank =>
    have hc : isNonBlank c = true := by simp [isNonBlank, hblank]
    split
    next htag =>
      rw [Bool.and_eq_true, ← Language.closingTag_script] at htag
      exact isRegularAt_closeElement (by decide) htag.2
    split
    next hslash =>
      rw [hslash]
      exact isRegularAt_slash regexAllowed rest
    split
    · exact isRegularAt_template ..
    split
    · exact isRegularAt_literal ..
    · exact isRegularAt_plainCode hc rest

/-- Every move of a script is regular. -/
theorem move_isRegularAt (regexAllowed : Bool) (state : ScriptState) (c : Char) (rest : Text) :
    (move regexAllowed state c rest).IsRegularAt (c :: rest) := by
  cases state with
  | code => exact isRegularAt_code regexAllowed c rest
  | comment => exact isRegularAt_comment ..
  | literal quote valid => exact isRegularAt_literal ..
  | template valid => exact isRegularAt_template ..
  | interpolation depth => exact isRegularAt_interpolation ..

end

end LineLexer.Script
