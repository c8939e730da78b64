import LineLexer.Proofs.Text.Bytewise

/-!
# Stretches of one class

A piece that a grammar takes is measured part by part, and each part goes over characters of a
class: a run, a character that was looked at, a word that the text starts with. `IsStretch` is that
the first characters of a text are of a class, and the parts add up (`IsStretch.add`). The numbers
of style sheets and of scripts are such stretches (`isStretch_numberWidth?`, `isStretch_numeral`),
and so are entity references and operators.

The classes that names, words and runs are made of hold no blanks (`isNonBlank_of_class`), so what
is measured by them holds none either.
-/

namespace LineLexer

/-- The first characters of a text, as many as a width says, are of a class. -/
def IsStretch (p : Char → Bool) (text : Text) (width : Nat) : Prop :=
  ∀ c ∈ text.take width, p c = true

section

variable {p q : Char → Bool} {text : Text}

/-- No character is of any class. -/
theorem isStretch_zero (p : Char → Bool) (text : Text) : IsStretch p text 0 := by
  unfold IsStretch
  simp

/-- A stretch of a class is one of any wider class. -/
theorem IsStretch.mono {width : Nat} (h : IsStretch p text width)
    (hpq : ∀ c, p c = true → q c = true) : IsStretch q text width :=
  fun c hc => hpq c (h c hc)

/-- A character of the class before a stretch makes it longer. -/
theorem IsStretch.cons {c : Char} {width : Nat} (h : IsStretch p text width) (hc : p c = true) :
    IsStretch p (c :: text) (width + 1) := by
  unfold IsStretch
  rw [List.take_succ_cons]
  exact List.forall_mem_cons.2 ⟨hc, h⟩

/-- A stretch is one up to any of its characters and one from there. -/
theorem isStretch_add {first second : Nat} :
    IsStretch p text (first + second) ↔
      IsStretch p text first ∧ IsStretch p (text.drop first) second := by
  unfold IsStretch
  rw [List.take_add]
  exact List.forall_mem_append

/-- Stretches in a row are one. -/
theorem IsStretch.add {first second : Nat} (h : IsStretch p text first)
    (hsecond : IsStretch p (text.drop first) second) : IsStretch p text (first + second) :=
  isStretch_add.2 ⟨h, hsecond⟩

/-- Characters that a stretch goes over are of its class. -/
theorem IsStretch.forall_mem {before behind : Text} {width : Nat}
    (h : IsStretch p (before ++ behind) width) (hle : before.length ≤ width) :
    ∀ c ∈ before, p c = true := by
  intro c hc
  refine h c ?_
  rw [List.take_append, List.take_of_length_le hle]
  exact List.mem_append_left _ hc

/-- One character of the class is a stretch. -/
theorem isStretch_one {c : Char} (h : text.head? = some c) (hc : p c = true) :
    IsStretch p text 1 := by
  obtain ⟨rest, rfl⟩ := List.head?_eq_some_iff.1 h
  exact (isStretch_zero p rest).cons hc

/-- A run is a stretch of any class that its test is within. -/
theorem isStretch_runLength (hqp : ∀ c, q c = true → p c = true) (text : Text) :
    IsStretch p text (runLength q text) := by
  unfold IsStretch
  rw [take_runLength]
  exact fun c hc => hqp c (List.all_eq_true.1 List.all_takeWhile c hc)

/-- After a run comes a character that is not of its class. -/
theorem head?_drop_runLength (p : Char → Bool) (text : Text) :
    ∀ c ∈ (text.drop (runLength p text)).head?, p c = false := by
  intro c hc
  have hdrop : text.drop (runLength p text) = text.dropWhile p :=
    calc text.drop (runLength p text)
        = (text.takeWhile p ++ text.dropWhile p).drop (text.takeWhile p).length := by
          rw [List.takeWhile_append_dropWhile, runLength]
      _ = text.dropWhile p := List.drop_left
  have hnot := List.head?_dropWhile_not p text
  rw [← hdrop, Option.mem_def.1 hc] at hnot
  exact hnot

/-- A word of the class that a text starts with is a stretch. -/
theorem isStretch_of_isPrefixOf {word : Text} (h : word.isPrefixOf text = true)
    (hword : ∀ c ∈ word, p c = true) : IsStretch p text word.length := by
  obtain ⟨rest, rfl⟩ := List.isPrefixOf_iff_prefix.1 h
  unfold IsStretch
  rwa [List.take_left]

/-! ## Classes without blanks -/

/-- The blanks. -/
def blankChars : List Char :=
  [' ', '\t', '\x0c', '\r', '\n']

/-- The blanks are listed. -/
theorem mem_blankChars {c : Char} : c ∈ blankChars ↔ isBlank c = true := by
  simp [blankChars, isBlank, or_assoc]

/-- Characters other than blanks. -/
def isNonBlank (c : Char) : Bool :=
  !isBlank c

/-- A class that none of the blanks is in is one of other characters. -/
theorem isNonBlank_of_class (h : blankChars.any p = false) (c : Char) (hc : p c = true) :
    isNonBlank c = true := by
  unfold isNonBlank
  cases hblank : isBlank c with
  | false => rfl
  | true => exact absurd hc (List.any_eq_false.1 h c (mem_blankChars.2 hblank))

/-- A blank has no capital form. -/
theorem toLower_of_isBlank {c : Char} (h : isBlank c = true) : c.toLower = c := by
  rcases (by simpa [isBlank, or_assoc] using h :
    c = ' ' ∨ c = '\t' ∨ c = '\x0c' ∨ c = '\r' ∨ c = '\n') with rfl | rfl | rfl | rfl | rfl <;> rfl

/-- A text that starts with a word without blanks, letter case aside, starts with no blank. -/
theorem isStretch_of_startsWithFolded {word : Text} (h : startsWithFolded word text = true)
    (hword : (foldCase word).any isBlank = false) : IsStretch isNonBlank text word.length := by
  obtain ⟨first, rest, rfl, hlen, hfold⟩ := startsWithFolded_iff.1 h
  unfold IsStretch
  rw [← hlen, List.take_left]
  intro c hc
  unfold isNonBlank
  cases hblank : isBlank c with
  | false => rfl
  | true =>
    -- A blank would stand among the small letters as well.
    have hmem : c ∈ foldCase word := by
      rw [← hfold, ← toLower_of_isBlank hblank]
      exact List.mem_map_of_mem hc
    exact absurd hblank (List.any_eq_false.1 hword c hmem)

/-! ## Numbers -/

/-- The characters of numbers with their units. -/
def isNumeralChar (c : Char) : Bool :=
  c.isAlphanum || c == '+' || c == '-' || c == '.' || c == '%'

/-- Digits are characters of numbers. -/
theorem isNumeralChar_of_isDigit (c : Char) (h : c.isDigit = true) : isNumeralChar c = true := by
  simp [isNumeralChar, Char.isAlphanum, h]

/-- Letters are characters of numbers. -/
theorem isNumeralChar_of_isAlpha (c : Char) (h : c.isAlpha = true) : isNumeralChar c = true := by
  simp [isNumeralChar, Char.isAlphanum, h]

/-- Hexadecimal digits are letters or digits. -/
theorem isAlphanum_of_isHexDigit (c : Char) (h : isHexDigit c = true) : c.isAlphanum = true := by
  unfold isHexDigit at h
  delta Char.isAlphanum Char.isAlpha Char.isUpper Char.isLower
  simp only [Bool.or_eq_true, Bool.and_eq_true, decide_eq_true_eq, Char.le_def,
    UInt32.le_iff_toNat_le, UInt32.reduceToNat, Char.reduceVal, ge_iff_le] at h ⊢
  rcases h with (h | h) | h
  · exact .inr h
  · omega
  · omega

/-- Hexadecimal digits are characters of numbers. -/
theorem isNumeralChar_of_isHexDigit (c : Char) (h : isHexDigit c = true) :
    isNumeralChar c = true := by
  simp [isNumeralChar, isAlphanum_of_isHexDigit c h]

/-- Digits in a row are characters of numbers. -/
theorem isStretch_digitsWidth (text : Text) : IsStretch isNumeralChar text (digitsWidth text) :=
  isStretch_runLength isNumeralChar_of_isDigit text

/-- A sign is a character of numbers. -/
theorem isStretch_signWidth (text : Text) : IsStretch isNumeralChar text (signWidth text) := by
  unfold signWidth
  split
  next h => rcases h with h | h <;> exact isStretch_one h (by decide)
  next => exact isStretch_zero _ text

/-- A point and the digits after it are characters of numbers. -/
theorem isStretch_fractionWidth (text : Text) :
    IsStretch isNumeralChar text (fractionWidth text) := by
  unfold fractionWidth
  split
  next h => exact (isStretch_one h (by decide)).add (isStretch_digitsWidth _)
  next => exact isStretch_zero _ text

namespace Style

/-- The number of a style sheet is of characters of numbers. -/
theorem isStretch_numberWidth? {width : Nat} (h : numberWidth? text = some width) :
    IsStretch isNumeralChar text width := by
  simp only [numberWidth?] at h
  split at h <;> cases h
  exact ((isStretch_signWidth text).add (isStretch_digitsWidth _)).add (isStretch_fractionWidth _)

/-- A unit is of characters of numbers. -/
theorem isStretch_unitWidth (text : Text) : IsStretch isNumeralChar text (unitWidth text) := by
  simp only [unitWidth]
  split
  next hpercent => exact isStretch_one hpercent (by decide)
  split
  · exact isStretch_runLength isNumeralChar_of_isAlpha text
  · exact isStretch_zero _ text

/-- A number with its unit is of characters of numbers. -/
theorem isStretch_number {width : Nat} (h : numberWidth? text = some width) :
    IsStretch isNumeralChar text (width + unitWidth (text.drop width)) :=
  (isStretch_numberWidth? h).add (isStretch_unitWidth _)

end Style

namespace Script

/-- An exponent is of characters of numbers. -/
theorem isStretch_exponentWidth (text : Text) :
    IsStretch isNumeralChar text (exponentWidth text) := by
  simp only [exponentWidth]
  split
  next h =>
    split
    · exact isStretch_zero _ text
    · have hmark : IsStretch isNumeralChar text 1 := by
        rcases h with h | h <;> exact isStretch_one h (by decide)
      exact (hmark.add (isStretch_signWidth _)).add (isStretch_digitsWidth _)
  next => exact isStretch_zero _ text

/-- The suffix of a decimal number is a character of numbers. -/
theorem isStretch_decimalSuffix (isFloat : Bool) (text : Text) :
    IsStretch isNumeralChar text (decimalSuffix isFloat text).2 := by
  unfold decimalSuffix
  split
  next c hc =>
    split
    next hfloat =>
      refine isStretch_one hc ?_
      simp only [Bool.or_eq_true, decide_eq_true_eq] at hfloat
      rcases hfloat with ((rfl | rfl) | rfl) | rfl <;> decide
    split
    · exact isStretch_zero _ text
    dsimp only
    split
    next hlong =>
      refine isStretch_one hc ?_
      simp only [Bool.or_eq_true, decide_eq_true_eq] at hlong
      rcases hlong with rfl | rfl <;> decide
    · exact isStretch_zero _ text
  · exact isStretch_zero _ text

/-- A decimal number is of characters of numbers. -/
theorem isStretch_decimal (text : Text) : IsStretch isNumeralChar text (decimal text).2 := by
  simp only [decimal]
  exact (((isStretch_digitsWidth text).add (isStretch_fractionWidth _)).add
    (isStretch_exponentWidth _)).add (isStretch_decimalSuffix _ _)

/-- The number of a script is of characters of numbers. -/
theorem isStretch_numeral (c : Char) (rest : Text) :
    IsStretch isNumeralChar (c :: rest) (numeral c rest).2 := by
  unfold numeral
  split
  next h =>
    obtain ⟨rfl, hmark⟩ := h
    have hlead : IsStretch isNumeralChar ('0' :: rest) 2 := by
      have hrest : IsStretch isNumeralChar rest 1 := by
        rcases hmark with h | h <;> exact isStretch_one h (by decide)
      exact hrest.cons (by decide)
    simp only [hexadecimal]
    split
    · exact hlead
    have hdigits : IsStretch isNumeralChar ('0' :: rest)
        (2 + runLength isHexDigit (rest.drop 1)) :=
      hlead.add (isStretch_runLength isNumeralChar_of_isHexDigit _)
    dsimp only
    split
    next hlong =>
      refine hdigits.add ?_
      rw [← List.drop_drop]
      rcases hlong with h | h <;> exact isStretch_one h (by decide)
    · exact hdigits
  · exact isStretch_decimal _

end Script

/-! ## Operators and entity references -/

/-- An operator that starts with a character other than a blank holds no blank. -/
theorem isStretch_operatorWidth {c : Char} (hc : isNonBlank c = true) (rest : Text) :
    IsStretch isNonBlank (c :: rest) (operatorWidth (c :: rest)) := by
  have hoperators : ∀ operator ∈ operators, operator.all isNonBlank = true := by decide
  unfold operatorWidth
  split
  next operator h =>
    have hprefix : operator.isPrefixOf (c :: rest) = true := by simpa using List.find?_some h
    have hsolid := hoperators operator (List.mem_of_find?_eq_some h)
    exact isStretch_of_isPrefixOf hprefix (List.all_eq_true.1 hsolid)
  next => exact (isStretch_zero _ rest).cons hc

namespace Markup

/-- The digits of a numeric entity reference and its semicolon hold no blank. -/
theorem isStretch_numericEntityWidth? {isDigit : Char → Bool}
    (hdigit : ∀ c, isDigit c = true → isNonBlank c = true) {lead width : Nat}
    (h : numericEntityWidth? isDigit lead text = some width) :
    IsStretch isNonBlank text (width - lead) := by
  have hdigits := isStretch_runLength hdigit text
  simp only [numericEntityWidth?] at h
  split at h
  · cases h
  split at h <;> cases h
  next hend =>
    rw [show lead + runLength isDigit text + 1 - lead = runLength isDigit text + 1 by omega]
    exact hdigits.add (isStretch_one hend (by decide))
  next => rwa [Nat.add_sub_cancel_left]

/-- An entity reference holds no blank. -/
theorem isStretch_entityWidth? {width : Nat} (h : entityWidth? text = some width) :
    IsStretch isNonBlank ('&' :: text) width := by
  have hamp : IsStretch isNonBlank ('&' :: text) 1 := isStretch_one rfl (by decide)
  unfold entityWidth? at h
  split at h
  next hsharp =>
    have hnumber : IsStretch isNonBlank ('&' :: text) 2 :=
      hamp.add (isStretch_one hsharp (by decide))
    split at h
    next hx =>
      have hletter : IsStretch isNonBlank (('&' :: text).drop 2) 1 := by
        rcases hx with hx | hx <;> exact isStretch_one hx (by decide)
      have hmark : IsStretch isNonBlank ('&' :: text) 3 := hnumber.add hletter
      have hdigits := isStretch_numericEntityWidth? (isNonBlank_of_class (by decide)) h
      rw [show width = 3 + (width - 3) by have := lt_of_numericEntityWidth? h; omega]
      exact hmark.add hdigits
    next =>
      have hdigits := isStretch_numericEntityWidth? (isNonBlank_of_class (by decide)) h
      rw [show width = 2 + (width - 2) by have := lt_of_numericEntityWidth? h; omega]
      exact hnumber.add hdigits
  next =>
    simp only [namedEntityWidth?, Bool.and_eq_true, beq_iff_eq] at h
    split at h <;> cases h
    next hend =>
      have hletters : IsStretch isNonBlank text (runLength Char.isAlphanum text) :=
        isStretch_runLength (isNonBlank_of_class (by decide)) text
      rw [show runLength Char.isAlphanum text + 2 =
        1 + (runLength Char.isAlphanum text + 1) by omega]
      exact hamp.add (hletters.add (isStretch_one hend.2 (by decide)))

end Markup

end

end LineLexer
