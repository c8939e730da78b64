import LineLexer.Proofs.Number.Grammar

/-!
# Decimal numbers

A decimal number is its digits before the point, its fraction, its exponent and its suffix, of which
any may be missing (`Parts`). The decimal integers and the floating-point numbers are told apart by
these parts (`mem_decimalInt_iff`, `mem_float_iff`). A decimal number on its own is read in full
(`IsDecimal.decimal_text`), what is read of a text is a decimal number (`exists_isDecimal`), and
reading on in more text takes no less (`length_le_decimal`).
-/

namespace LineLexer.Script

open Grammar

/-! ## Parts of decimal numbers -/

/-- The parts of a decimal number, of which any may be empty. -/
structure Parts where
  whole : Text
  fraction : Text
  exponent : Text
  suffix : Text

namespace Parts

/-- The text of the parts. -/
def text (parts : Parts) : Text :=
  parts.whole ++ (parts.fraction ++ (parts.exponent ++ parts.suffix))

/-- Whether a point or an exponent makes the number a float. -/
def isFloat (parts : Parts) : Bool :=
  !parts.fraction.isEmpty || !parts.exponent.isEmpty

/-- The kind of a number with a suffix, given whether it is a float without it. -/
def kindOf (isFloat : Bool) (suffix : Text) : Kind :=
  if isFloat || suffix.any (['f', 'F', 'd', 'D'].contains ·) then .literalFloat
  else .literalDecimalInt

/-- The suffixes of a number, given whether it is a float without them. -/
def suffixes (isFloat : Bool) : Grammar :=
  {text | text ∈ opt floatSuffix ∨ text ∈ longSuffix ∧ isFloat = false}

/-- The parts make a decimal number: they are what they are named for, and there is a digit before
or behind the point. -/
structure IsDecimal (parts : Parts) : Prop where
  whole : parts.whole ∈ many Char.isDigit
  fraction : parts.fraction ∈ opt Script.fraction
  exponent : parts.exponent ∈ opt Script.exponent
  suffix : parts.suffix ∈ suffixes parts.isFloat
  digit : parts.whole ≠ [] ∨ parts.fraction ∈ seq (oneOf ['.']) (many1 Char.isDigit)

/-! ### Suffixes -/

/-- A suffix at the end of a text is taken. -/
theorem decimalSuffix_of_mem {isFloat : Bool} {suffix : Text} (h : suffix ∈ suffixes isFloat) :
    decimalSuffix isFloat suffix = (kindOf isFloat suffix, suffix.length) := by
  have hlong : ∀ c ∈ ['l', 'L'], decimalSuffix false [c] = (kindOf false [c], 1) := by
    simp [decimalSuffix, kindOf]
  have hfloat : ∀ c ∈ ['f', 'F', 'd', 'D'], ∀ isFloat,
      decimalSuffix isFloat [c] = (kindOf isFloat [c], 1) := by
    simp [decimalSuffix, kindOf]
  rcases h with (rfl | ⟨c, hc, rfl⟩) | ⟨⟨c, hc, rfl⟩, rfl⟩
  · cases isFloat <;> rfl
  · exact hfloat c hc isFloat
  · exact hlong c hc

/-- A text falls into its suffix, if it has one, and what is left. -/
theorem exists_suffix (isFloat : Bool) (text : Text) : ∃ taken rest, text = taken ++ rest ∧
    taken ∈ suffixes isFloat ∧
      decimalSuffix isFloat text = (kindOf isFloat taken, taken.length) := by
  have hnone : [] ∈ suffixes isFloat := .inl (.inl rfl)
  cases text with
  | nil => exact ⟨[], [], rfl, hnone, decimalSuffix_of_mem hnone⟩
  | cons c rest =>
    -- Only the first character counts.
    have hhead : decimalSuffix isFloat (c :: rest) = decimalSuffix isFloat [c] := rfl
    by_cases hc : [c] ∈ suffixes isFloat
    · exact ⟨[c], rest, rfl, hc, hhead.trans (decimalSuffix_of_mem hc)⟩
    · have hfloat : ¬(c = 'f' ∨ c = 'F' ∨ c = 'd' ∨ c = 'D') := fun h =>
        hc (.inl (.inr ⟨c, by simpa using h, rfl⟩))
      have hlong : isFloat = false → ¬(c = 'l' ∨ c = 'L') := fun hfalse h =>
        hc (.inr ⟨⟨c, by simpa using h, rfl⟩, hfalse⟩)
      refine ⟨[], c :: rest, rfl, hnone, ?_⟩
      simp only [not_or] at hfloat hlong
      cases isFloat with
      | true => simp [decimalSuffix, kindOf, hfloat]
      | false => simp [decimalSuffix, kindOf, hfloat, hlong rfl]

/-! ### What is read of a decimal number -/

/-- What is read of a decimal number, given what is read of each part of it. -/
theorem decimal_eq (parts : Parts) (rest : Text)
    (hwhole : digitsWidth (parts.whole ++
      (parts.fraction ++ (parts.exponent ++ (parts.suffix ++ rest)))) = parts.whole.length)
    (hfraction : fractionWidth (parts.fraction ++ (parts.exponent ++ (parts.suffix ++ rest))) =
      parts.fraction.length)
    (hexponent : exponentWidth (parts.exponent ++ (parts.suffix ++ rest)) = parts.exponent.length)
    (hsuffix : decimalSuffix parts.isFloat (parts.suffix ++ rest) =
      (kindOf parts.isFloat parts.suffix, parts.suffix.length)) :
    decimal (parts.text ++ rest) =
      (kindOf parts.isFloat parts.suffix, parts.text.length) := by
  have hfloat : (decide (0 < parts.fraction.length) || decide (0 < parts.exponent.length)) =
      parts.isFloat := by
    cases hf : parts.fraction <;> cases he : parts.exponent <;> simp [isFloat, hf, he]
  have htext : parts.text ++ rest =
      parts.whole ++ (parts.fraction ++ (parts.exponent ++ (parts.suffix ++ rest))) := by
    simp [text]
  rw [htext]
  simp only [decimal, hwhole, List.drop_left, hfraction, ← List.drop_drop, hexponent, hfloat,
    hsuffix, text, List.length_append, Nat.add_assoc]

/-- A decimal number on its own is read in full. -/
theorem IsDecimal.decimal_text {parts : Parts} (h : parts.IsDecimal) :
    decimal parts.text = (kindOf parts.isFloat parts.suffix, parts.text.length) := by
  -- What follows a part starts with a mark of a later one, so that no part is read on into it.
  have hsuffix : ∀ c ∈ parts.suffix.head?, c ∈ ['f', 'F', 'd', 'D', 'l', 'L'] := by
    intro c hc
    rcases h.suffix with (hnil | ⟨d, hd, hsuffix⟩) | ⟨⟨d, hd, hsuffix⟩, -⟩
    · rw [hnil] at hc
      cases hc
    · rw [hsuffix] at hc
      obtain rfl := Option.some.inj hc
      exact List.mem_append_left ['l', 'L'] hd
    · rw [hsuffix] at hc
      obtain rfl := Option.some.inj hc
      exact List.mem_append_right ['f', 'F', 'd', 'D'] hd
  have hexponent : ∀ c ∈ (parts.exponent ++ parts.suffix).head?,
      c ∈ ['e', 'E', 'f', 'F', 'd', 'D', 'l', 'L'] := by
    intro c hc
    rcases h.exponent with hnil | ⟨_, ⟨d, hd, rfl⟩, more, -, hexponent⟩
    · rw [hnil, List.nil_append] at hc
      exact List.mem_append_right ['e', 'E'] (hsuffix c hc)
    · rw [hexponent] at hc
      obtain rfl := Option.some.inj hc
      exact List.mem_append_left ['f', 'F', 'd', 'D', 'l', 'L'] hd
  have hfraction : ∀ c ∈ (parts.fraction ++ (parts.exponent ++ parts.suffix)).head?,
      c ∈ ['.', 'e', 'E', 'f', 'F', 'd', 'D', 'l', 'L'] := by
    intro c hc
    rcases h.fraction with hnil | ⟨_, ⟨d, hd, rfl⟩, more, -, hfraction⟩
    · rw [hnil, List.nil_append] at hc
      exact List.mem_append_right ['.'] (hexponent c hc)
    · rw [hfraction] at hc
      obtain rfl := Option.some.inj hc
      exact List.mem_append_left ['e', 'E', 'f', 'F', 'd', 'D', 'l', 'L'] hd
  have hnotDigit : ∀ c ∈ ['.', 'e', 'E', 'f', 'F', 'd', 'D', 'l', 'L'], c.isDigit = false := by
    simp
  have hnotPoint : ∀ c ∈ ['e', 'E', 'f', 'F', 'd', 'D', 'l', 'L'],
      c ≠ '.' ∧ c.isDigit = false := by
    simp
  have hnotMark : ∀ c ∈ ['f', 'F', 'd', 'D', 'l', 'L'], c ∉ ['e', 'E'] ∧ c.isDigit = false := by
    simp
  have hdecimal := decimal_eq parts []
  simp only [List.append_nil] at hdecimal
  apply hdecimal
  · exact runLength_append_of_head? h.whole fun c hc => hnotDigit c (hfraction c hc)
  · exact fractionWidth_append_of_head? h.fraction fun c hc => hnotPoint c (hexponent c hc)
  · exact exponentWidth_append_of_head? h.exponent fun c hc => hnotMark c (hsuffix c hc)
  · exact decimalSuffix_of_mem h.suffix

/-- What is read of a text that starts with a digit, or with a point and a digit, is a decimal
number. -/
theorem exists_isDecimal {c : Char} {rest : Text}
    (h : (c.isDigit || (c == '.' && rest.head?.any Char.isDigit)) = true) :
    ∃ (parts : Parts) (left : Text), c :: rest = parts.text ++ left ∧ parts.IsDecimal ∧
      decimal (c :: rest) = (kindOf parts.isFloat parts.suffix, parts.text.length) := by
  obtain ⟨whole, afterWhole, htext, hwhole, -, hwholeWidth⟩ := exists_run Char.isDigit (c :: rest)
  obtain ⟨fraction, afterFraction, rfl, hfraction, hfractionWidth⟩ := exists_fraction afterWhole
  obtain ⟨exponent, afterExponent, rfl, hexponent, hexponentWidth⟩ := exists_exponent afterFraction
  obtain ⟨suffix, left, rfl, hsuffix, hsuffixWidth⟩ :=
    exists_suffix (!fraction.isEmpty || !exponent.isEmpty) afterExponent
  have hall : c :: rest = Parts.text ⟨whole, fraction, exponent, suffix⟩ ++ left := by
    rw [htext]
    simp [Parts.text]
  refine ⟨⟨whole, fraction, exponent, suffix⟩, left, hall,
    ⟨hwhole, hfraction, hexponent, hsuffix, ?_⟩, ?_⟩
  · -- The text would start with what is no digit, so it starts with a point that a digit follows.
    refine or_iff_not_imp_left.2 fun hne => ?_
    obtain rfl : whole = [] := by simpa using hne
    have hc : c.isDigit = false := by
      refine Bool.eq_false_iff.2 fun hdigit => ?_
      exact Nat.ne_of_gt (runLength_pos rest hdigit) hwholeWidth
    simp only [hc, Bool.false_or, Bool.and_eq_true, beq_iff_eq, Option.any_eq_true] at h
    obtain ⟨rfl, d, hd, hdigit⟩ := h
    obtain ⟨rest, rfl⟩ := List.head?_eq_some_iff.1 hd
    have hdigits : 0 < digitsWidth (d :: rest) := runLength_pos rest hdigit
    have hwidth : fractionWidth ('.' :: d :: rest) = 1 + digitsWidth (d :: rest) := rfl
    rw [htext, List.nil_append, hfractionWidth] at hwidth
    rcases hfraction with rfl | ⟨_, hpoint, digits, hmany, rfl⟩
    · rw [List.length_nil] at hwidth
      omega
    · refine ⟨_, hpoint, digits, ⟨?_, hmany⟩, rfl⟩
      rintro rfl
      obtain ⟨p, -, rfl⟩ := hpoint
      rw [List.append_nil, List.length_singleton] at hwidth
      omega
  · rw [hall]
    refine decimal_eq ⟨whole, fraction, exponent, suffix⟩ left ?_ hfractionWidth hexponentWidth
      hsuffixWidth
    rw [← htext]
    exact hwholeWidth

/-! ### The grammars of decimal numbers -/

/-- A suffix makes a float if it is one of floats. -/
theorem kindOf_false_of_mem_floatSuffix {suffix : Text} (h : suffix ∈ floatSuffix) :
    kindOf false suffix = .literalFloat := by
  obtain ⟨c, hc, rfl⟩ := h
  revert hc c
  simp [kindOf]

/-- A suffix of integers makes no float. -/
theorem kindOf_false_of_mem_longSuffix {suffix : Text} (h : suffix ∈ longSuffix) :
    kindOf false suffix = .literalDecimalInt := by
  obtain ⟨c, hc, rfl⟩ := h
  revert hc c
  simp [kindOf]

/-- A number with a point is a float. -/
theorem isFloat_of_fraction {parts : Parts} (h : parts.fraction ∈ Script.fraction) :
    parts.isFloat = true := by
  obtain ⟨_, ⟨c, -, rfl⟩, digits, -, htext⟩ := h
  simp [isFloat, htext]

/-- A number with an exponent is a float. -/
theorem isFloat_of_exponent {parts : Parts} (h : parts.exponent ∈ Script.exponent) :
    parts.isFloat = true := by
  obtain ⟨_, ⟨c, -, rfl⟩, digits, -, htext⟩ := h
  simp [isFloat, htext]

/-- A float has no suffix of integers. -/
theorem IsDecimal.suffix_mem {parts : Parts} (h : parts.IsDecimal) (hfloat : parts.isFloat = true) :
    parts.suffix ∈ opt floatSuffix :=
  h.suffix.resolve_right fun hlong => Bool.false_ne_true (hlong.2.symm.trans hfloat)

/-- A number without a fraction has a digit before its suffix. -/
theorem IsDecimal.whole_mem {parts : Parts} (h : parts.IsDecimal) (hnil : parts.fraction = []) :
    parts.whole ∈ many1 Char.isDigit := by
  refine ⟨h.digit.resolve_right ?_, h.whole⟩
  rintro ⟨_, ⟨c, -, rfl⟩, digits, -, htext⟩
  rw [hnil] at htext
  cases htext

/-- The decimal integers are the decimal numbers that are no floats. -/
theorem mem_decimalInt_iff {text : Text} : text ∈ decimalInt ↔ ∃ parts : Parts,
    parts.text = text ∧ parts.IsDecimal ∧
      kindOf parts.isFloat parts.suffix = .literalDecimalInt := by
  constructor
  · rintro ⟨digits, ⟨hne, hdigits⟩, suffix, hsuffix, rfl⟩
    refine ⟨⟨digits, [], [], suffix⟩, rfl, ⟨hdigits, .inl rfl, .inl rfl, ?_, .inl hne⟩, ?_⟩
    · rcases hsuffix with rfl | hsuffix
      · exact .inl (.inl rfl)
      · exact .inr ⟨hsuffix, rfl⟩
    · rcases hsuffix with rfl | hsuffix
      · rfl
      · exact kindOf_false_of_mem_longSuffix hsuffix
  · rintro ⟨⟨whole, fraction, exponent, suffix⟩, rfl, h, hkind⟩
    have hfloat : Parts.isFloat ⟨whole, fraction, exponent, suffix⟩ = false := by
      refine Bool.eq_false_iff.2 fun hfloat => ?_
      rw [hfloat] at hkind
      cases hkind
    obtain ⟨rfl, rfl⟩ : fraction = [] ∧ exponent = [] := by simpa [isFloat] using hfloat
    refine ⟨whole, h.whole_mem rfl, suffix, ?_, rfl⟩
    rcases h.suffix with (hnil | hsuffix) | ⟨hsuffix, -⟩
    · exact .inl hnil
    · rw [hfloat, kindOf_false_of_mem_floatSuffix hsuffix] at hkind
      cases hkind
    · exact .inr hsuffix

/-- The floating-point numbers are the other decimal numbers. -/
theorem mem_float_iff {text : Text} : text ∈ float ↔ ∃ parts : Parts,
    parts.text = text ∧ parts.IsDecimal ∧ kindOf parts.isFloat parts.suffix = .literalFloat := by
  constructor
  · rintro ((⟨_, hleft, _, ⟨exponent, hexponent, suffix, hsuffix, rfl⟩, rfl⟩ |
      ⟨whole, ⟨hne, hwhole⟩, _, ⟨exponent, hexponent, suffix, hsuffix, rfl⟩, rfl⟩) |
      ⟨whole, ⟨hne, hwhole⟩, suffix, hsuffix, rfl⟩)
    · rcases hleft with ⟨whole, ⟨hne, hwhole⟩, fraction, hfraction, rfl⟩ |
        ⟨point, hpoint, digits, hdigits, rfl⟩
      · have hfloat : Parts.isFloat ⟨whole, fraction, exponent, suffix⟩ = true :=
          isFloat_of_fraction hfraction
        exact ⟨⟨whole, fraction, exponent, suffix⟩, by simp [Parts.text],
          ⟨hwhole, .inr hfraction, hexponent, .inl hsuffix, .inl hne⟩, by rw [hfloat]; rfl⟩
      · have hfraction : point ++ digits ∈ Script.fraction :=
          ⟨point, hpoint, digits, hdigits.2, rfl⟩
        have hfloat : Parts.isFloat ⟨[], point ++ digits, exponent, suffix⟩ = true :=
          isFloat_of_fraction hfraction
        exact ⟨⟨[], point ++ digits, exponent, suffix⟩, by simp [Parts.text],
          ⟨by simp [many], .inr hfraction, hexponent, .inl hsuffix,
            .inr ⟨point, hpoint, digits, hdigits, rfl⟩⟩, by rw [hfloat]; rfl⟩
    · have hfloat : Parts.isFloat ⟨whole, [], exponent, suffix⟩ = true :=
        isFloat_of_exponent hexponent
      exact ⟨⟨whole, [], exponent, suffix⟩, rfl,
        ⟨hwhole, .inl rfl, .inr hexponent, .inl hsuffix, .inl hne⟩, by rw [hfloat]; rfl⟩
    · exact ⟨⟨whole, [], [], suffix⟩, rfl,
        ⟨hwhole, .inl rfl, .inl rfl, .inl (.inr hsuffix), .inl hne⟩,
        kindOf_false_of_mem_floatSuffix hsuffix⟩
  · rintro ⟨⟨whole, fraction, exponent, suffix⟩, rfl, h, hkind⟩
    rcases h.fraction with hnil | hfraction
    · obtain rfl : fraction = [] := hnil
      have hwhole := h.whole_mem rfl
      rcases h.exponent with hnil | hexponent
      · -- Only the suffix is left to make it a float.
        obtain rfl : exponent = [] := hnil
        refine .inr ⟨whole, hwhole, suffix, ?_, rfl⟩
        rcases h.suffix with (hnil | hsuffix) | ⟨hsuffix, -⟩
        · obtain rfl : suffix = [] := hnil
          cases hkind
        · exact hsuffix
        · have hdecimal := kindOf_false_of_mem_longSuffix hsuffix
          exact absurd (hdecimal.symm.trans hkind) (by decide)
      · have hsuffix := h.suffix_mem (isFloat_of_exponent hexponent)
        exact .inl (.inr ⟨whole, hwhole, _, ⟨exponent, hexponent, suffix, hsuffix, rfl⟩, rfl⟩)
    · have hsuffix := h.suffix_mem (isFloat_of_fraction hfraction)
      have hleft : whole ++ fraction ∈ seq (many1 Char.isDigit) Script.fraction ∪
          seq (oneOf ['.']) (many1 Char.isDigit) := by
        by_cases hne : whole = []
        · obtain rfl := hne
          exact .inr (h.digit.resolve_left fun hne => hne rfl)
        · exact .inl ⟨whole, ⟨hne, h.whole⟩, fraction, hfraction, rfl⟩
      exact .inl (.inl ⟨_, hleft, _, ⟨exponent, h.exponent, suffix, hsuffix, rfl⟩,
        by simp [Parts.text]⟩)

end Parts

/-! ## Reading on in more text -/

/-- More text behind it does not take a suffix back. -/
theorem decimalSuffix_append (isFloat : Bool) {text : Text}
    (h : (decimalSuffix isFloat text).2 = text.length) (more : Text) :
    text.length ≤ (decimalSuffix isFloat (text ++ more)).2 := by
  cases text with
  | nil => exact Nat.zero_le _
  | cons c rest => exact h ▸ Nat.le_refl _

/-- A text that is read in full as a decimal number is read that far with more text behind it. -/
theorem length_le_decimal {text : Text} (h : (decimal text).2 = text.length) (more : Text) :
    text.length ≤ (decimal (text ++ more)).2 := by
  obtain ⟨whole, afterWhole, rfl, -, -, hwhole⟩ := exists_run Char.isDigit text
  obtain ⟨fraction, afterFraction, rfl, -, hfraction⟩ := exists_fraction afterWhole
  obtain ⟨exponent, afterExponent, rfl, -, hexponent⟩ := exists_exponent afterFraction
  have hwholeMore := runLength_append Char.isDigit
    (whole ++ (fraction ++ (exponent ++ afterExponent))) more
  have hfractionMore := fractionWidth_append (fraction ++ (exponent ++ afterExponent)) more
  have hexponentMore := exponentWidth_append (exponent ++ afterExponent) more
  simp only [List.append_assoc] at hwholeMore hfractionMore hexponentMore
  simp only [decimal, digitsWidth, hwhole, List.drop_left, hfraction, ← List.drop_drop, hexponent,
    List.length_append, List.append_assoc] at h hwholeMore hfractionMore hexponentMore ⊢
  -- Part by part: what goes on in more text was all of the text, and the rest stays as it is.
  rcases hwholeMore with hsame | ⟨-, hle⟩
  · rw [hsame, List.drop_left]
    rcases hfractionMore with hsame | ⟨-, hle⟩
    · rw [hsame, List.drop_left]
      rcases hexponentMore with hsame | ⟨-, hle⟩ | ⟨hzero, c, hhead, hc⟩
      · rw [hsame, List.drop_left]
        have hsuffix := decimalSuffix_append
          (decide (0 < fraction.length) || decide (0 < exponent.length))
          (show _ = afterExponent.length by omega) more
        omega
      · omega
      · -- The mark without digits would be read as a suffix.
        obtain rfl : exponent = [] := List.length_eq_zero_iff.1 hzero
        obtain ⟨rest, rfl⟩ := List.head?_eq_some_iff.1 hhead
        have hnone : ∀ c ∈ ['e', 'E'], ∀ isFloat, (decimalSuffix isFloat [c]).2 = 0 := by
          simp [decimalSuffix]
        have hsuffix : ∀ isFloat, (decimalSuffix isFloat (c :: rest)).2 = 0 := hnone c hc
        rw [hsuffix, List.length_cons] at h
        omega
    · omega
  · omega

end LineLexer.Script
