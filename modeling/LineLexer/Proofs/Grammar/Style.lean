import LineLexer.Grammar.Style
import LineLexer.Proofs.Text.LetterCase
import LineLexer.Proofs.Text.Stretch

/-!
# The moves of style sheets in code

What a move in the code of a style sheet can be, whatever the context (`codeMove_contextMove`). All
contexts share blanks, comments, literals and the closing tag. All else is one piece of a first
character and inner characters behind it, which are those of names and numbers and the colon
(`IsPlain`), with one exception: a selector takes slashes in a row as one piece.
-/

namespace LineLexer.Style

/-- The characters that a piece of code may hold behind its first one. -/
def isInner (c : Char) : Bool :=
  isNameChar c || isNumeralChar c || c == ':'

/-- A move takes one piece of code, of which the text behind the first character holds all but that
character, and they are inner characters. -/
def IsPlain (move : Move) (rest : Text) : Prop :=
  ∃ kind width flags next, move = ⟨[⟨kind, width + 1, .style, flags⟩], .style (.code next)⟩ ∧
    IsStretch isInner rest width

/-- The move that a context makes in its code. -/
inductive CodeMove (context : StyleContext) (c : Char) (rest : Text) : Move → Prop
  | blanks (hblank : isBlank c = true) :
      CodeMove context c rest (code .whitespace (runLength isBlank rest + 1) context)
  | comment (hslash : c = '/') (hstar : rest.head? = some '*') :
      CodeMove context c rest (comment context 2 (rest.drop 1))
  | closingTag (htag : atClosingTag styleTag (c :: rest) = true) :
      CodeMove context c rest (closeElement styleTag)
  | literal {quote : Quote} (hquote : Quote.ofChar? c = some quote) :
      CodeMove context c rest (literal quote context 1 rest)
  | slashes (hselector : context = .selector) (hslash : c = '/') (hstar : rest.head? ≠ some '*') :
      CodeMove context c rest (code .identifier (runLength (· == '/') rest + 1) .selector)
  | plain {move : Move} (hopener : ¬(c = '/' && rest.head? = some '*') = true)
      (htag : ¬(c = '<' && atClosingTag styleTag (c :: rest)) = true) (hplain : IsPlain move rest) :
      CodeMove context c rest move

/-- The piece of a comment is one of a comment. -/
theorem kind_of_mem_comment {context : StyleContext} {lead : Nat} {body : Text} {piece : Piece}
    (h : piece ∈ (comment context lead body).pieces) : piece.kind = .commentMultiline := by
  unfold comment at h
  split at h <;> obtain rfl := List.mem_singleton.1 h <;> rfl

/-- The piece of a literal is one of its quotation mark. -/
theorem kind_of_mem_literal {quote : Quote} {context : StyleContext} {lead : Nat} {body : Text}
    {piece : Piece} (h : piece ∈ (literal quote context lead body).pieces) :
    piece.kind = literalKind quote := by
  unfold literal at h
  split at h <;> obtain rfl := List.mem_singleton.1 h <;> rfl

section

variable {c : Char} {rest : Text}

/-! ## Plain pieces -/

/-- One character is plain. -/
theorem isPlain_one (kind : Kind) (next : StyleContext) (rest : Text) :
    IsPlain (code kind 1 next) rest :=
  ⟨kind, 0, .empty, next, rfl, isStretch_zero _ rest⟩

/-- A run of inner characters behind the first one is plain. -/
theorem isPlain_run {p : Char → Bool} (hp : ∀ c, p c = true → isInner c = true) (kind : Kind)
    (next : StyleContext) (rest : Text) : IsPlain (code kind (runLength p rest + 1) next) rest :=
  ⟨kind, runLength p rest, .empty, next, rfl, isStretch_runLength hp rest⟩

/-- The characters of names are inner ones. -/
theorem isInner_of_isNameChar (c : Char) (h : isNameChar c = true) : isInner c = true := by
  simp [isInner, h]

/-- The characters of numbers are inner ones. -/
theorem isInner_of_isNumeralChar (c : Char) (h : isNumeralChar c = true) : isInner c = true := by
  simp [isInner, h]

/-- A name behind the first character is plain. -/
theorem isPlain_name (kind : Kind) (next : StyleContext) (rest : Text) :
    IsPlain (code kind (runLength isNameChar rest + 1) next) rest :=
  isPlain_run isInner_of_isNameChar kind next rest

/-- A name or a call is plain. -/
theorem isPlain_wordOrCall (rest : Text) (context : StyleContext) :
    IsPlain (wordOrCall rest context) rest := by
  simp only [wordOrCall]
  rw [Nat.add_comm]
  exact isPlain_name _ context rest

/-- A number with its unit is plain. -/
theorem isPlain_number {width : Nat} (h : numberWidth? (c :: rest) = some width)
    (context : StyleContext) : IsPlain (number width (c :: rest) context) rest := by
  obtain ⟨tail, rfl⟩ := Nat.exists_eq_succ_of_ne_zero (Nat.ne_of_gt (numberWidth?_pos h))
  have hstretch := (isStretch_number h).mono isInner_of_isNumeralChar
  have hwidth : tail + 1 + unitWidth ((c :: rest).drop (tail + 1)) =
      1 + (tail + unitWidth ((c :: rest).drop (tail + 1))) := by omega
  rw [hwidth, isStretch_add] at hstretch
  refine ⟨.literalDecimalInt, _, .empty, context, ?_, hstretch.2⟩
  simp only [number, code, one, piece, hwidth, Nat.add_comm 1]

/-- Colons and the name after them are plain. -/
theorem isPlain_pseudo (rest : Text) : IsPlain (pseudo rest) rest := by
  -- The first colon stands before the text.
  obtain ⟨colons, hcolons, hmore⟩ : ∃ colons,
      (if rest.head? = some ':' then 2 else 1) = colons + 1 ∧ IsStretch isInner rest colons := by
    split
    next h => exact ⟨1, rfl, isStretch_one h (by decide)⟩
    next => exact ⟨0, rfl, isStretch_zero _ rest⟩
  have hname : IsStretch isInner (rest.drop colons) (runLength isNameChar (rest.drop colons)) :=
    isStretch_runLength isInner_of_isNameChar _
  simp only [pseudo, hcolons, Nat.add_sub_cancel]
  split
  · refine ⟨.reservedWord, _, .empty, .selector, ?_, hmore.add hname⟩
    rw [Nat.add_right_comm]
    rfl
  · exact ⟨.operator, colons, .empty, .selector, rfl, hmore⟩

/-- An at sign with the name after it is plain. -/
theorem isPlain_atKeyword (rest : Text) : IsPlain (atKeyword rest) rest := by
  have hwidth : 1 + (rest.takeWhile isNameChar).length = runLength isNameChar rest + 1 :=
    Nat.add_comm ..
  simp only [atKeyword, hwidth]
  exact ⟨_, _, _, _, rfl, isStretch_runLength isInner_of_isNameChar rest⟩

/-! ## Contexts -/

/-- In a selector all but slashes is plain. -/
theorem isPlain_selector (hc : c ≠ '/') (rest : Text) : IsPlain (selector c rest) rest := by
  rw [selector, if_neg hc]
  split
  · exact isPlain_atKeyword rest
  split
  · exact isPlain_one ..
  split
  · exact isPlain_one ..
  split
  · exact isPlain_pseudo rest
  split
  · exact isPlain_name ..
  split
  · exact isPlain_one ..
  split
  · exact isPlain_name ..
  split
  · exact isPlain_one ..
  split
  · exact isPlain_name ..
  · exact isPlain_one ..

/-- In the prelude of an at-rule all is plain. -/
theorem isPlain_atRulePrelude (body : AtRuleBody) (c : Char) (rest : Text) :
    IsPlain (atRulePrelude body c rest) rest := by
  unfold atRulePrelude
  repeat' split
  all_goals first
    | exact isPlain_one ..
    | exact isPlain_number ‹_› _
    | exact isPlain_wordOrCall ..

/-- Left of a colon all is plain. -/
theorem isPlain_propertyKey (c : Char) (rest : Text) : IsPlain (propertyKey c rest) rest := by
  unfold propertyKey
  repeat' split
  all_goals first
    | exact isPlain_one ..
    | exact isPlain_name ..

/-- Right of a colon all is plain. -/
theorem isPlain_propertyValue (c : Char) (rest : Text) : IsPlain (propertyValue c rest) rest := by
  have himportant : startsWithFolded "important".toList rest = true → IsStretch isInner rest 9 := by
    intro h
    obtain ⟨word, tail, rfl, hlength, hfold⟩ := startsWithFolded_iff.1 h
    have hblind : CaseBlind isInner := caseBlind_of_letters (by decide)
    have hword : (foldCase word).all isInner = true := by
      rw [hfold]
      decide
    intro d hd
    rw [show 9 = word.length from hlength.symm, List.take_left] at hd
    rw [← hblind d]
    exact List.all_eq_true.1 hword _ (List.mem_map_of_mem hd)
  have hhex : ∀ c, isHexDigit c = true → isInner c = true := fun c hc =>
    isInner_of_isNumeralChar c (isNumeralChar_of_isHexDigit c hc)
  unfold propertyValue
  split
  · exact isPlain_one ..
  split
  · exact isPlain_one ..
  split
  · exact isPlain_one ..
  split
  next h => exact ⟨_, 9, .empty, _, rfl, himportant (Bool.and_eq_true_iff.1 h).2⟩
  split
  · exact isPlain_run hhex ..
  split
  next hnumber => exact isPlain_number hnumber _
  split
  · exact isPlain_wordOrCall ..
  · exact isPlain_one ..

/-- The move of a context in its code. -/
theorem codeMove_contextMove (context : StyleContext) (c : Char) (rest : Text) :
    CodeMove context c rest (contextMove context c rest) := by
  unfold contextMove
  split
  next hblank => exact .blanks hblank
  split
  next hopener =>
    rw [Bool.and_eq_true, decide_eq_true_eq, decide_eq_true_eq] at hopener
    exact .comment hopener.1 hopener.2
  next hopener =>
    split
    next htag => exact .closingTag (Bool.and_eq_true_iff.1 htag).2
    next htag =>
      split
      next quote hquote => exact .literal hquote
      next =>
        cases context with
        | selector =>
          by_cases hc : c = '/'
          · subst hc
            have hstar : rest.head? ≠ some '*' := by simpa using hopener
            exact .slashes rfl rfl hstar
          · exact .plain hopener htag (isPlain_selector hc rest)
        | atRule body => exact .plain hopener htag (isPlain_atRulePrelude body c rest)
        | propertyKey => exact .plain hopener htag (isPlain_propertyKey c rest)
        | propertyValue => exact .plain hopener htag (isPlain_propertyValue c rest)

end

end LineLexer.Style
