import LineLexer.Text.Numeral

/-!
# Numerals that are read back

A number is written in digits below its base, the last digit being the remainder, so reading the
digits of a number gives it back (`readDigits?_toDigits`), after any number of zeros
(`readDigits?_zeros`). Hence a word that is written with eight digits is read back
(`readWord?_wordText`).
-/

namespace LineLexer

/-! ## Digits -/

/-- The digits of a number are those below the base. -/
theorem exists_of_mem_toDigits {base n : Nat} (hbase : 1 < base) {c : Char}
    (h : c ∈ Nat.toDigits base n) : ∃ digit < base, c = digit.digitChar := by
  induction n using Nat.strongRecOn with
  | ind n ih =>
    rcases Nat.lt_or_ge n base with hlt | hge
    · rw [Nat.toDigits_of_lt_base hlt, List.mem_singleton] at h
      exact ⟨n, hlt, h⟩
    · rw [Nat.toDigits_of_base_le hbase hge, List.mem_append, List.mem_singleton] at h
      rcases h with h | h
      · exact ih _ (Nat.div_lt_self (by omega) hbase) h
      · exact ⟨n % base, Nat.mod_lt n (by omega), h⟩

/-- A digit below sixteen has its value. -/
theorem digitValue?_digitChar {digit : Nat} (h : digit < 16) :
    digitValue? digit.digitChar = some digit := by
  revert digit
  decide

/-- Digits are read from the first to the last. -/
theorem readDigits?_append (base value : Nat) (first rest : Text) :
    readDigits? base value (first ++ rest) =
      (readDigits? base value first).bind (readDigits? base · rest) := by
  induction first generalizing value with
  | nil => rfl
  | cons c first ih =>
    rw [List.cons_append, readDigits?, readDigits?]
    cases digitValue? c with
    | none => rfl
    | some digit =>
      dsimp only
      split
      · exact ih _
      · rfl

/-- A digit below the base is read after those before it. -/
theorem readDigits?_digitChar {base digit : Nat} (hbase : base ≤ 16) (h : digit < base)
    (value : Nat) : readDigits? base value [digit.digitChar] = some (base * value + digit) := by
  rw [readDigits?, digitValue?_digitChar (Nat.lt_of_lt_of_le h hbase)]
  simp [h, readDigits?]

/-- The digits of a number are read back. -/
theorem readDigits?_toDigits {base : Nat} (hlow : 1 < base) (hhigh : base ≤ 16) (n : Nat) :
    readDigits? base 0 (Nat.toDigits base n) = some n := by
  induction n using Nat.strongRecOn with
  | ind n ih =>
    rcases Nat.lt_or_ge n base with hlt | hge
    · rw [Nat.toDigits_of_lt_base hlt, readDigits?_digitChar hhigh hlt]
      simp
    · -- The last digit is the remainder, and those before it are the digits of the quotient.
      have hdiv : n / base < n := Nat.div_lt_self (by omega) hlow
      have hmod : n % base < base := Nat.mod_lt n (by omega)
      rw [Nat.toDigits_of_base_le hlow hge, readDigits?_append, ih _ hdiv, Option.bind_some,
        readDigits?_digitChar hhigh hmod, Nat.div_add_mod]

/-- Leading zeros do not count. -/
theorem readDigits?_zeros {base : Nat} (h : 0 < base) (count : Nat) (digits : Text) :
    readDigits? base 0 (List.replicate count '0' ++ digits) = readDigits? base 0 digits := by
  induction count with
  | zero => rfl
  | succ count ih =>
    have hzero : digitValue? '0' = some 0 := by decide
    rw [List.replicate_succ, List.cons_append, readDigits?, hzero]
    simpa [h] using ih

/-! ## Numbers -/

/-- Digits that are read are a number: they start with no sign. -/
theorem readNumber?_of_readDigits? {base n : Nat} {digits : Text} (hne : digits ≠ [])
    (h : readDigits? base 0 digits = some n) : readNumber? base digits = some n := by
  have hsign : digits.head? ≠ some '+' := by
    intro hplus
    obtain ⟨rest, rfl⟩ := List.head?_eq_some_iff.1 hplus
    cases h
  simp [readNumber?, hsign, hne, h]

/-- A number is read back from its decimal digits. -/
theorem readNumber?_decimalText (n : Nat) : readNumber? 10 (decimalText n) = some n :=
  readNumber?_of_readDigits? Nat.toDigits_ne_nil
    (readDigits?_toDigits (by decide) (by decide) n)

/-- A number in decimal digits holds digits only. -/
theorem isDigit_of_mem_decimalText {n : Nat} {c : Char} (h : c ∈ decimalText n) :
    c.isDigit = true :=
  Nat.isDigit_of_mem_toDigits (by decide) (by decide) h

/-- A word is read back from its eight digits. -/
theorem readWord?_wordText (word : UInt32) : readWord? (wordText word) = some word := by
  have hdigits : readDigits? 16 0 (List.replicate (8 - (hexText word.toNat).length) '0' ++
      hexText word.toNat) = some word.toNat := by
    rw [readDigits?_zeros (by decide)]
    exact readDigits?_toDigits (by decide) (by decide) word.toNat
  have hne : List.replicate (8 - (hexText word.toNat).length) '0' ++ hexText word.toNat ≠ [] :=
    List.append_ne_nil_of_right_ne_nil _ Nat.toDigits_ne_nil
  have hnumber := readNumber?_of_readDigits? hne hdigits
  have hlt : word.toNat < UInt32.size := word.toNat_lt
  simp [readWord?, wordText, hnumber, hlt]

end LineLexer
