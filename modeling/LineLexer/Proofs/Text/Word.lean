import LineLexer.Proofs.Text.Bytewise
import LineLexer.Proofs.Text.Numeral
import Mathlib.Data.List.Basic
import Mathlib.Data.Nat.Digits.Defs

/-!
# Which texts are words

A word is written in decimal digits, or in hexadecimal ones behind `0x` or `0X` (`IsNumberText`).
Reading a digit takes its rank among the sixteen (`digitValue?_eq_some_iff`), so reading a row of
digits takes the number that they are the digits of (`readDigits?_eq_some_iff`). A plus sign may
stand before the digits, and nothing else is read: `readWord?_iff` says which texts are words, and
that each of them that holds no plus sign is the number that is written.
-/

namespace LineLexer

/-! ## Numerals -/

/-- The digits up to base sixteen, each at the place that is its value. -/
def digitRow : Text := "0123456789abcdef".toList

/-- The value of a digit in either letter case. -/
def digitRank (c : Char) : Nat := digitRow.idxOf c.toLower

/-- A text is a numeral of a base for a number: it consists of one or more digits of the base, and
the number has these digits, of which the last one is the least. -/
structure IsNumeral (base : Nat) (text : Text) (n : Nat) : Prop where
  ne_nil : text ≠ []
  isDigit : ∀ c ∈ text, c.toLower ∈ digitRow.take base
  value : Nat.ofDigits base (text.reverse.map digitRank) = n

/-- A numeral holds no character that is no digit. -/
theorem IsNumeral.not_mem {base n : Nat} {text : Text} (h : IsNumeral base text n) {c : Char}
    (hc : c.toLower ∉ digitRow) : c ∉ text :=
  fun hmem => hc (List.mem_of_mem_take (h.isDigit c hmem))

/-- A character is read as a digit if it is in the row, and has its rank there as value. -/
theorem digitValue?_eq_some_iff {c : Char} {digit : Nat} :
    digitValue? c = some digit ↔ c.toLower ∈ digitRow ∧ digitRank c = digit := by
  have hvalue : digitValue? c = if c.toLower ∈ digitRow then some (digitRank c) else none := by
    cases hc : isNonAscii c with
    | true =>
      -- All digits are ASCII characters.
      have hrow : c.toLower ∉ digitRow := by
        intro hmem
        have hall : digitRow.all (fun d => !isNonAscii d) = true := by decide
        have := List.all_eq_true.1 hall _ hmem
        rw [isNonAscii_toLower, hc] at this
        cases this
      have hhex := asciiOnly_isHexDigit c hc
      simp only [isHexDigit, Bool.or_eq_false_iff] at hhex
      simp [digitValue?, hhex, hrow]
    | false =>
      have hcode : ∀ code < 128, digitValue? (Char.ofNat code) =
          if (Char.ofNat code).toLower ∈ digitRow then some (digitRank (Char.ofNat code))
          else none := by
        decide +kernel
      rw [← Char.ofNat_toNat c]
      exact hcode c.toNat (isNonAscii_eq_false.1 hc)
  rw [hvalue]
  split
  next h => simp [h]
  next h => simp [h]

/-- A digit of a base is one whose value is below the base. -/
theorem mem_take_digitRow_iff {base : Nat} {c : Char} :
    c.toLower ∈ digitRow.take base ↔ c.toLower ∈ digitRow ∧ digitRank c < base := by
  constructor
  · intro h
    have hrow := List.mem_of_mem_take h
    exact ⟨hrow, (List.mem_take_iff_idxOf_lt hrow).1 h⟩
  · rintro ⟨hrow, hlt⟩
    exact (List.mem_take_iff_idxOf_lt hrow).2 hlt

/-! ## Reading -/

/-- A row of digits is read as the number that has these digits behind those read before. -/
theorem readDigits?_eq_some_iff {base value n : Nat} {text : Text} :
    readDigits? base value text = some n ↔
      (∀ c ∈ text, c.toLower ∈ digitRow.take base) ∧
        Nat.ofDigits base (text.reverse.map digitRank) + base ^ text.length * value = n := by
  induction text generalizing value with
  | nil => simp [readDigits?]
  | cons c text ih =>
    -- The first digit stands before all others.
    have hdigits : Nat.ofDigits base ((c :: text).reverse.map digitRank) =
        Nat.ofDigits base (text.reverse.map digitRank) + base ^ text.length * digitRank c := by
      rw [List.reverse_cons, List.map_append, Nat.ofDigits_append]
      simp
    have hpower : base ^ (c :: text).length * value = base ^ text.length * (base * value) := by
      rw [List.length_cons, Nat.pow_succ, Nat.mul_assoc]
    rw [readDigits?, List.forall_mem_cons, mem_take_digitRow_iff, hdigits, hpower, Nat.add_assoc,
      ← Nat.mul_add, Nat.add_comm (digitRank c)]
    cases hc : digitValue? c with
    | none =>
      have hrow : c.toLower ∉ digitRow := fun hmem => by
        rw [digitValue?_eq_some_iff.2 ⟨hmem, rfl⟩] at hc
        cases hc
      simp [hrow]
    | some digit =>
      obtain ⟨hrow, rfl⟩ := digitValue?_eq_some_iff.1 hc
      dsimp only
      split
      next hlt => simp [ih, hrow, hlt]
      next hle => simp [hrow, hle]

/-- The digits of a number are a numeral for it. -/
theorem isNumeral_toDigits {base : Nat} (hlow : 1 < base) (hhigh : base ≤ 16) (n : Nat) :
    IsNumeral base (Nat.toDigits base n) n := by
  obtain ⟨hdigits, hvalue⟩ := readDigits?_eq_some_iff.1 (readDigits?_toDigits hlow hhigh n)
  exact ⟨Nat.toDigits_ne_nil, hdigits, hvalue⟩

/-- A number is read from a numeral, before which a plus sign may stand. -/
theorem readNumber?_eq_some_iff {base n : Nat} {text : Text} :
    readNumber? base text = some n ↔
      IsNumeral base text n ∨ ∃ digits, text = '+' :: digits ∧ IsNumeral base digits n := by
  have hread : ∀ {digits}, (if digits.isEmpty then none else readDigits? base 0 digits) = some n ↔
      IsNumeral base digits n := by
    intro digits
    cases digits with
    | nil => exact ⟨fun h => by simp at h, fun h => absurd rfl h.ne_nil⟩
    | cons c digits =>
      rw [List.isEmpty_cons, if_neg (by decide), readDigits?_eq_some_iff, Nat.mul_zero,
        Nat.add_zero]
      exact ⟨fun h => ⟨List.cons_ne_nil c digits, h.1, h.2⟩, fun h => ⟨h.isDigit, h.value⟩⟩
  by_cases hplus : text.head? = some '+'
  · obtain ⟨digits, rfl⟩ := List.head?_eq_some_iff.1 hplus
    have hsign : ¬IsNumeral base ('+' :: digits) n := fun h =>
      h.not_mem (by decide) List.mem_cons_self
    have htext : readNumber? base ('+' :: digits) =
        if digits.isEmpty then none else readDigits? base 0 digits := rfl
    rw [htext, hread]
    simp [hsign]
  · have htext : readNumber? base text =
        if text.isEmpty then none else readDigits? base 0 text := by
      simp only [readNumber?, if_neg hplus]
    rw [htext, hread, or_iff_left]
    rintro ⟨digits, rfl, -⟩
    exact hplus rfl

/-! ## Words -/

/-- The marks before the digits of a word, each with the base that it tells. -/
def wordMarks : List (Nat × Text) :=
  [(10, []), (16, "0x".toList), (16, "0X".toList)]

/-- A text is a number in writing: the mark of a base, a sign, and a numeral of that base. -/
def IsNumberText (sign text : Text) (n : Nat) : Prop :=
  ∃ base mark digits, (base, mark) ∈ wordMarks ∧ text = mark ++ (sign ++ digits) ∧
    IsNumeral base digits n

/-- A number is read behind the mark of its base. -/
def markedNumber? (text : Text) : Option Nat :=
  if "0x".toList.isPrefixOf text || "0X".toList.isPrefixOf text then readNumber? 16 (text.drop 2)
  else readNumber? 10 text

/-- A word is read as a number that fits. -/
theorem readWord?_eq_some_iff {text : Text} {word : UInt32} :
    readWord? text = some word ↔ markedNumber? text = some word.toNat := by
  have hunfold : readWord? text = (markedNumber? text).bind fun n =>
      if n < UInt32.size then some (UInt32.ofNat n) else none := by
    rw [readWord?, ← markedNumber?]
    cases markedNumber? text <;> rfl
  rw [hunfold, Option.bind_eq_some_iff]
  constructor
  · rintro ⟨n, hn, hword⟩
    split at hword
    next hlt =>
      rw [← Option.some.inj hword, UInt32.toNat_ofNat_of_lt' hlt, hn]
    next => cases hword
  · intro h
    exact ⟨word.toNat, h, by rw [if_pos word.toNat_lt, UInt32.ofNat_toNat]⟩

/-- The marks of base sixteen. -/
theorem hexMark_iff {mark : Text} :
    (16, mark) ∈ wordMarks ↔ mark = "0x".toList ∨ mark = "0X".toList := by
  simp [wordMarks]

/-- Behind a mark of base sixteen stand a sign and a numeral of that base. -/
theorem isNumberText_mark_append {mark : Text} (hmark : (16, mark) ∈ wordMarks) {sign : Text}
    (hsign : sign = [] ∨ sign = ['+']) (rest : Text) (n : Nat) :
    IsNumberText sign (mark ++ rest) n ↔
      ∃ digits, rest = sign ++ digits ∧ IsNumeral 16 digits n := by
  obtain ⟨letter, rfl, hletter⟩ : ∃ letter, mark = ['0', letter] ∧
      letter.toLower ∉ digitRow.take 10 := by
    rcases hexMark_iff.1 hmark with rfl | rfl
    · exact ⟨'x', rfl, by decide⟩
    · exact ⟨'X', rfl, by decide⟩
  constructor
  · rintro ⟨base, other, digits, hother, htext, h⟩
    simp only [wordMarks, List.mem_cons, List.not_mem_nil, or_false, Prod.mk.injEq] at hother
    rcases hother with ⟨rfl, rfl⟩ | ⟨rfl, rfl⟩ | ⟨rfl, rfl⟩
    · -- A decimal numeral starts with neither mark.
      rcases hsign with rfl | rfl
      · obtain rfl : '0' :: letter :: rest = digits := htext
        exact absurd (h.isDigit letter (by simp)) hletter
      · cases htext
    · exact ⟨digits, (List.append_inj htext rfl).2, h⟩
    · exact ⟨digits, (List.append_inj htext rfl).2, h⟩
  · rintro ⟨digits, rfl, h⟩
    exact ⟨16, _, digits, hmark, rfl, h⟩

/-- A text without a mark is a sign and a decimal numeral. -/
theorem isNumberText_of_unmarked {text : Text} (h : ∀ mark, (16, mark) ∈ wordMarks → ¬mark <+: text)
    (sign : Text) (n : Nat) :
    IsNumberText sign text n ↔ ∃ digits, text = sign ++ digits ∧ IsNumeral 10 digits n := by
  constructor
  · rintro ⟨base, mark, digits, hmark, rfl, hdigits⟩
    simp only [wordMarks, List.mem_cons, List.not_mem_nil, or_false, Prod.mk.injEq] at hmark
    rcases hmark with ⟨rfl, rfl⟩ | ⟨rfl, rfl⟩ | ⟨rfl, rfl⟩
    · exact ⟨digits, rfl, hdigits⟩
    · exact absurd (List.prefix_append ..) (h _ (by decide))
    · exact absurd (List.prefix_append ..) (h _ (by decide))
  · rintro ⟨digits, rfl, hdigits⟩
    exact ⟨10, [], digits, by decide, rfl, hdigits⟩

/-- A number is read from the texts that are one in writing, without a sign or with a plus sign. -/
theorem markedNumber?_eq_some_iff {text : Text} {n : Nat} :
    markedNumber? text = some n ↔ IsNumberText [] text n ∨ IsNumberText ['+'] text n := by
  by_cases hmarked : ∃ mark, (16, mark) ∈ wordMarks ∧ mark <+: text
  · obtain ⟨mark, hmark, rest, rfl⟩ := hmarked
    have hread : markedNumber? (mark ++ rest) = readNumber? 16 rest := by
      rcases hexMark_iff.1 hmark with rfl | rfl
      · rfl
      · rfl
    rw [hread, readNumber?_eq_some_iff, isNumberText_mark_append hmark (.inl rfl),
      isNumberText_mark_append hmark (.inr rfl)]
    simp
  · have hnone : ∀ mark, (16, mark) ∈ wordMarks → ¬mark <+: text := fun mark hmark hstarts =>
      hmarked ⟨mark, hmark, hstarts⟩
    have hread : markedNumber? text = readNumber? 10 text := by
      have hsmall := hnone "0x".toList (by decide)
      have hcapital := hnone "0X".toList (by decide)
      rw [markedNumber?, if_neg]
      rw [Bool.or_eq_true, List.isPrefixOf_iff_prefix, List.isPrefixOf_iff_prefix]
      exact not_or.2 ⟨hsmall, hcapital⟩
    rw [hread, readNumber?_eq_some_iff, isNumberText_of_unmarked hnone,
      isNumberText_of_unmarked hnone]
    simp

/-- A number with a plus sign is written with one. -/
theorem IsNumberText.plus_mem {text : Text} {n : Nat} (h : IsNumberText ['+'] text n) :
    '+' ∈ text := by
  obtain ⟨base, mark, digits, -, rfl, -⟩ := h
  simp

/-- The texts that are read as words are the decimal numerals and the hexadecimal ones behind `0x`
or `0X`, of numbers that fit into a word, and the same with a plus sign before the digits. All other
texts are refused. So of the texts without a plus sign, just the numerals are read. -/
theorem readWord?_iff (text : Text) :
    (∀ word, readWord? text = some word ↔
      IsNumberText [] text word.toNat ∨ IsNumberText ['+'] text word.toNat) ∧
    (readWord? text = none ↔
      ∀ n ≤ 2 ^ 32 - 1, ¬IsNumberText [] text n ∧ ¬IsNumberText ['+'] text n) ∧
    ('+' ∉ text → ∀ word, readWord? text = some word ↔ IsNumberText [] text word.toNat) := by
  have hword : ∀ word, readWord? text = some word ↔
      IsNumberText [] text word.toNat ∨ IsNumberText ['+'] text word.toNat := fun word => by
    rw [readWord?_eq_some_iff, markedNumber?_eq_some_iff]
  refine ⟨hword, ⟨fun hnone n hn => ?_, fun hnone => ?_⟩, fun hplus word => ?_⟩
  · have hnot := hword (UInt32.ofNat n)
    rw [hnone, UInt32.toNat_ofNat_of_lt' (show n < UInt32.size by simp only [UInt32.size]; omega)]
      at hnot
    exact not_or.1 fun h => Option.some_ne_none _ (hnot.2 h).symm
  · refine Option.eq_none_iff_forall_ne_some.2 fun word hread => ?_
    have hn := hnone word.toNat (Nat.le_sub_one_of_lt word.toNat_lt)
    exact ((hword word).1 hread).elim hn.1 hn.2
  · rw [hword, or_iff_left fun h => hplus h.plus_mem]

/-- Leading zeros do not count, and digits are read in both letter cases. -/
theorem readWord?_iff_of_zeros :
    '+' ∉ "0X00000000fF".toList ∧ readWord? "0X00000000fF".toList = some 255 ∧
      IsNumberText [] "0X00000000fF".toList 255 := by
  have hplus : '+' ∉ "0X00000000fF".toList := by decide
  have hread : readWord? "0X00000000fF".toList = some 255 := by decide
  exact ⟨hplus, hread, ((readWord?_iff "0X00000000fF".toList).2.2 hplus 255).1 hread⟩

/-- With a plus sign behind its mark, a text is read as a word that it is not. -/
theorem exists_word_of_plus :
    readWord? "0x+5".toList = some 5 ∧ ∀ n, ¬IsNumberText [] "0x+5".toList n := by
  refine ⟨by decide, fun n h => ?_⟩
  have hmark : (16, "0x".toList) ∈ wordMarks := hexMark_iff.2 (.inl rfl)
  obtain ⟨digits, rfl, hdigits⟩ :=
    (isNumberText_mark_append hmark (.inl rfl) "+5".toList n).1 h
  exact hdigits.not_mem (by decide) (List.mem_cons_self : '+' ∈ "+5".toList)

end LineLexer
