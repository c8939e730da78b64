import LineLexer.Proofs.Kind.Basic

/-!
# Regular moves of style sheets

Every move of a style sheet is regular (`Style.move_isRegularAt`). Comments and literals may hold
blanks, and the names, numbers and single characters of the four contexts hold none. Of the names
only those of at-rules are looked up for a flag: the names of units and of pseudo-classes decide
about widths and kinds.
-/

namespace LineLexer.Style

section

variable {c : Char}

/-! ## Pieces -/

/-- One character other than a blank is no blank piece. -/
theorem isRegularAt_one {kind : Kind} (hkind : kind ∈ Language.style.kinds)
    (hsolid : kind ≠ .whitespace) (hc : isNonBlank c = true) (rest : Text) (next : StyleContext) :
    (code kind 1 next).IsRegularAt (c :: rest) :=
  Move.isRegularAt_of_isStretch hkind hsolid (isStretch_one rfl hc)

/-- A character other than a blank and the name characters after it make a regular piece. -/
theorem isRegularAt_name {kind : Kind} (hkind : kind ∈ Language.style.kinds)
    (hsolid : kind ≠ .whitespace) (hc : isNonBlank c = true) (rest : Text) (next : StyleContext) :
    (code kind (runLength isNameChar rest + 1) next).IsRegularAt (c :: rest) := by
  have hname : IsStretch isNonBlank rest (runLength isNameChar rest) :=
    isStretch_runLength (isNonBlank_of_class (by decide)) rest
  exact Move.isRegularAt_of_isStretch hkind hsolid (hname.cons hc)

/-- A name or a call is regular. -/
theorem isRegularAt_wordOrCall (hc : isNonBlank c = true) (rest : Text) (context : StyleContext) :
    (wordOrCall rest context).IsRegularAt (c :: rest) := by
  simp only [wordOrCall]
  rw [Nat.add_comm]
  split
  · exact isRegularAt_name (by decide) (by decide) hc rest context
  · exact isRegularAt_name (by decide) (by decide) hc rest context

/-- A number with its unit is regular. -/
theorem isRegularAt_number {text : Text} {width : Nat} (h : numberWidth? text = some width)
    (context : StyleContext) : (number width text context).IsRegularAt text := by
  have htext := (isStretch_number h).mono (isNonBlank_of_class (by decide))
  exact Move.isRegularAt_of_isStretch (by decide) (by decide) htext

/-- A comment is regular. -/
theorem isRegularAt_comment (context : StyleContext) (lead : Nat) (body text : Text) :
    (comment context lead body).IsRegularAt text := by
  unfold comment
  split
  · exact Move.isRegularAt_of_mayHoldBlanks (by decide) (by decide) (by decide)
  · exact Move.isRegularAt_of_mayHoldBlanks (by decide) (by decide) (by decide)

/-- A literal is regular. -/
theorem isRegularAt_literal (quote : Quote) (context : StyleContext) (lead : Nat)
    (body text : Text) : (literal quote context lead body).IsRegularAt text := by
  obtain ⟨hkind, hsolid, hblanks⟩ : literalKind quote ∈ Language.style.kinds ∧
      literalKind quote ≠ .whitespace ∧
      Language.style.mayHoldBlanks (literalKind quote) = true := by
    cases quote <;> decide
  unfold literal
  split
  · exact Move.isRegularAt_of_mayHoldBlanks hkind hsolid hblanks
  · exact Move.isRegularAt_of_mayHoldBlanks hkind hsolid hblanks

/-! ## Contexts -/

/-- Colons with the name after them are regular. -/
theorem isRegularAt_pseudo (rest : Text) : (pseudo rest).IsRegularAt (':' :: rest) := by
  have hcolons : IsStretch isNonBlank (':' :: rest) (if rest.head? = some ':' then 2 else 1) := by
    split
    next h => exact (isStretch_one h (by decide)).cons (by decide)
    next => exact isStretch_one rfl (by decide)
  have hname : ∀ text, IsStretch isNonBlank text (runLength isNameChar text) :=
    isStretch_runLength (isNonBlank_of_class (by decide))
  -- The name starts after the colons, of which the first stands before the text.
  have hdrop : (':' :: rest).drop (if rest.head? = some ':' then 2 else 1) =
      rest.drop ((if rest.head? = some ':' then 2 else 1) - 1) := by
    split <;> rfl
  simp only [pseudo]
  generalize (if rest.head? = some ':' then 2 else 1) = colons at hcolons hdrop ⊢
  split
  · refine Move.isRegularAt_of_isStretch (by decide) (by decide) (hcolons.add ?_)
    rw [hdrop]
    exact hname _
  · exact Move.isRegularAt_of_isStretch (by decide) (by decide) hcolons

/-- An at sign with the name after it is regular. -/
theorem isRegularAt_atKeyword (rest : Text) : (atKeyword rest).IsRegularAt ('@' :: rest) := by
  have hname : IsStretch isNonBlank rest (runLength isNameChar rest) :=
    isStretch_runLength (isNonBlank_of_class (by decide)) rest
  have htext : IsStretch isNonBlank ('@' :: rest) (1 + runLength isNameChar rest) := by
    rw [Nat.add_comm]
    exact hname.cons (by decide)
  exact Move.isRegularAt_singleton
    (Piece.isRegularAt_of_looksUp _ (by decide) (by decide) (by decide) htext) nofun

/-- A move in a selector is regular. -/
theorem isRegularAt_selector (hc : isNonBlank c = true) (rest : Text) :
    (selector c rest).IsRegularAt (c :: rest) := by
  unfold selector
  split
  next hat =>
    rw [hat]
    exact isRegularAt_atKeyword rest
  split
  · exact isRegularAt_one (by decide) (by decide) hc rest _
  split
  · exact isRegularAt_one (by decide) (by decide) hc rest _
  split
  next hcolon =>
    rw [hcolon]
    exact isRegularAt_pseudo rest
  split
  · exact isRegularAt_name (by decide) (by decide) hc rest _
  split
  · exact isRegularAt_one (by decide) (by decide) hc rest _
  split
  · exact isRegularAt_name (by decide) (by decide) hc rest _
  split
  · have hslashes : IsStretch isNonBlank rest (runLength (· == '/') rest) :=
      isStretch_runLength (isNonBlank_of_class (by decide)) rest
    exact Move.isRegularAt_of_isStretch (by decide) (by decide) (hslashes.cons hc)
  split
  · exact isRegularAt_one (by decide) (by decide) hc rest _
  split
  · exact isRegularAt_name (by decide) (by decide) hc rest _
  · exact isRegularAt_one (by decide) (by decide) hc rest _

/-- A move in the prelude of an at-rule is regular. -/
theorem isRegularAt_atRulePrelude (body : AtRuleBody) (hc : isNonBlank c = true) (rest : Text) :
    (atRulePrelude body c rest).IsRegularAt (c :: rest) := by
  unfold atRulePrelude
  split
  · exact isRegularAt_one (by decide) (by decide) hc rest _
  split
  · exact isRegularAt_one (by decide) (by decide) hc rest _
  split
  · exact isRegularAt_one (by decide) (by decide) hc rest _
  split
  · exact isRegularAt_one (by decide) (by decide) hc rest _
  split
  · exact isRegularAt_one (by decide) (by decide) hc rest _
  split
  next hnumber => exact isRegularAt_number hnumber _
  split
  · exact isRegularAt_wordOrCall hc rest _
  · exact isRegularAt_one (by decide) (by decide) hc rest _

/-- A move left of a colon is regular. -/
theorem isRegularAt_propertyKey (hc : isNonBlank c = true) (rest : Text) :
    (propertyKey c rest).IsRegularAt (c :: rest) := by
  unfold propertyKey
  split
  · exact isRegularAt_one (by decide) (by decide) hc rest _
  split
  · exact isRegularAt_one (by decide) (by decide) hc rest _
  split
  · exact isRegularAt_one (by decide) (by decide) hc rest _
  split
  · exact isRegularAt_one (by decide) (by decide) hc rest _
  split
  · exact isRegularAt_name (by decide) (by decide) hc rest _
  · exact isRegularAt_one (by decide) (by decide) hc rest _

/-- A move right of a colon is regular. -/
theorem isRegularAt_propertyValue (hc : isNonBlank c = true) (rest : Text) :
    (propertyValue c rest).IsRegularAt (c :: rest) := by
  unfold propertyValue
  split
  · exact isRegularAt_one (by decide) (by decide) hc rest _
  split
  · exact isRegularAt_one (by decide) (by decide) hc rest _
  split
  · exact isRegularAt_one (by decide) (by decide) hc rest _
  split
  next himportant =>
    rw [Bool.and_eq_true] at himportant
    have hword : IsStretch isNonBlank rest 9 :=
      isStretch_of_startsWithFolded himportant.2 (by decide)
    exact Move.isRegularAt_of_isStretch (by decide) (by decide) (hword.cons hc)
  split
  · have hdigits : IsStretch isNonBlank rest (runLength isHexDigit rest) :=
      isStretch_runLength (isNonBlank_of_class (by decide)) rest
    exact Move.isRegularAt_of_isStretch (by decide) (by decide) (hdigits.cons hc)
  split
  next hnumber => exact isRegularAt_number hnumber _
  split
  · exact isRegularAt_wordOrCall hc rest _
  · exact isRegularAt_one (by decide) (by decide) hc rest _

/-! ## Moves -/

/-- A move in the code of a context is regular. -/
theorem isRegularAt_contextMove (context : StyleContext) (c : Char) (rest : Text) :
    (contextMove context c rest).IsRegularAt (c :: rest) := by
  unfold contextMove
  split
  next hblank => exact Move.isRegularAt_blanks hblank .style
  next hblank =>
    have hc : isNonBlank c = true := by simp [isNonBlank, hblank]
    split
    · exact isRegularAt_comment ..
    split
    next htag =>
      rw [Bool.and_eq_true, ← Language.closingTag_style] at htag
      exact isRegularAt_closeElement (by decide) htag.2
    split
    · exact isRegularAt_literal ..
    cases context with
    | selector => exact isRegularAt_selector hc rest
    | atRule body => exact isRegularAt_atRulePrelude body hc rest
    | propertyKey => exact isRegularAt_propertyKey hc rest
    | propertyValue => exact isRegularAt_propertyValue hc rest

/-- Every move of a style sheet is regular. -/
theorem move_isRegularAt (state : StyleState) (c : Char) (rest : Text) :
    (move state c rest).IsRegularAt (c :: rest) := by
  cases state with
  | code context => exact isRegularAt_contextMove context c rest
  | comment context => exact isRegularAt_comment ..
  | literal quote context => exact isRegularAt_literal ..

end

end LineLexer.Style
