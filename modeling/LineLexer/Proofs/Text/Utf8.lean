import LineLexer.Cursor

/-!
# The bytes of characters

A character of the ASCII range is one byte, its code. Any other character starts with a byte that
gives its width, and all its bytes lie above the ASCII range. So a rule that looks at bytes one by
one may read each as the character of its code (`bytewise`): it meets the ASCII characters of the
text as they are, and in place of any other character a stretch of characters that are not ASCII
either.
-/

namespace LineLexer

/-- The bytes of a text, each read as the character of its code. -/
def bytewise (text : Text) : Text :=
  (utf8Bytes text).map Char.ofUInt8

/-! ## Bytes as characters -/

/-- A byte has the code of the character that it is read as. -/
@[simp] theorem toNat_ofUInt8 (byte : UInt8) : (Char.ofUInt8 byte).toNat = byte.toNat := rfl

/-- A character is not ASCII if its code is above the range. -/
theorem isNonAscii_iff {c : Char} : isNonAscii c = true ↔ 128 ≤ c.toNat := by
  simp [isNonAscii]

/-- A character is ASCII if its code is within the range. -/
theorem isNonAscii_eq_false {c : Char} : isNonAscii c = false ↔ c.toNat < 128 := by
  simp [isNonAscii]

/-- A byte above the ASCII range is read as a character that is not ASCII. -/
theorem isNonAscii_ofUInt8 {byte : UInt8} :
    isNonAscii (Char.ofUInt8 byte) = true ↔ 128 ≤ byte.toNat := by
  rw [isNonAscii_iff, toNat_ofUInt8]

/-- An ASCII character is one byte, its code. -/
theorem utf8EncodeChar_of_ascii {c : Char} (h : isNonAscii c = false) :
    String.utf8EncodeChar c = [UInt8.ofNat c.toNat] := by
  have hc : c.val.toNat ≤ 0x7f := Nat.le_of_lt_succ (isNonAscii_eq_false.1 h)
  simp only [String.utf8EncodeChar, hc, ↓reduceIte]
  rfl

/-- An ASCII character takes one byte. -/
theorem utf8Size_of_ascii {c : Char} (h : isNonAscii c = false) : c.utf8Size = 1 := by
  rw [← String.length_utf8EncodeChar, utf8EncodeChar_of_ascii h]
  rfl

/-- The first byte of a character gives its width. -/
theorem leadWidth_utf8EncodeChar (c : Char) :
    ∃ lead more, String.utf8EncodeChar c = lead :: more ∧ leadWidth lead = c.utf8Size := by
  have hvalid : c.val.toNat ≤ 0x10ffff := by
    have := c.valid
    simp only [UInt32.isValidChar, Nat.isValidChar] at this
    omega
  have hlen := String.length_utf8EncodeChar c
  have hwidth : ∀ n : Nat, n < 256 → leadWidth (UInt8.ofNat n) =
      if 0xC0 ≤ n ∧ n ≤ 0xDF then 2 else if 0xE0 ≤ n ∧ n ≤ 0xEF then 3
      else if 0xF0 ≤ n ∧ n ≤ 0xF7 then 4 else 1 := by
    intro n hn
    have hnat : (UInt8.ofNat n).toNat = n := by
      rw [UInt8.toNat_ofNat']
      exact Nat.mod_eq_of_lt hn
    simp only [leadWidth, Bool.and_eq_true, decide_eq_true_eq, UInt8.le_iff_toNat_le, hnat]
    rfl
  unfold String.utf8EncodeChar at hlen ⊢
  simp only at hlen ⊢
  generalize c.val.toNat = v at hlen hvalid ⊢
  -- One form of the encoding for each width, by the range of the code.
  split at hlen <;> rename_i h1
  · rw [if_pos h1]
    refine ⟨_, _, rfl, ?_⟩
    rw [hwidth v (by omega), ← hlen, if_neg (by omega), if_neg (by omega), if_neg (by omega)]
    rfl
  rw [if_neg h1]
  split at hlen <;> rename_i h2
  · rw [if_pos h2]
    refine ⟨_, _, rfl, ?_⟩
    rw [hwidth _ (by omega), ← hlen, if_pos (by omega)]
    rfl
  rw [if_neg h2]
  split at hlen <;> rename_i h3
  · rw [if_pos h3]
    refine ⟨_, _, rfl, ?_⟩
    rw [hwidth _ (by omega), ← hlen, if_neg (by omega), if_pos (by omega)]
    rfl
  · rw [if_neg h3]
    refine ⟨_, _, rfl, ?_⟩
    rw [hwidth _ (by omega), ← hlen, if_neg (by omega), if_neg (by omega), if_pos (by omega)]
    rfl

/-- The bytes of a character that is not ASCII all lie above the range. -/
theorem le_of_mem_utf8EncodeChar {c : Char} (h : isNonAscii c = true) {byte : UInt8}
    (hb : byte ∈ String.utf8EncodeChar c) : 128 ≤ byte.toNat := by
  have hc : ¬c.val.toNat ≤ 0x7f := by
    have h128 : 128 ≤ c.val.toNat := isNonAscii_iff.1 h
    omega
  have hnat : ∀ n : Nat, 128 ≤ n → n < 256 → 128 ≤ (UInt8.ofNat n).toNat := by
    intro n h1 h2
    rw [UInt8.toNat_ofNat', Nat.mod_eq_of_lt h2]
    exact h1
  have hvalid : c.val.toNat ≤ 0x10ffff := by
    have := c.valid
    simp only [UInt32.isValidChar, Nat.isValidChar] at this
    omega
  unfold String.utf8EncodeChar at hb
  simp only [if_neg hc] at hb
  generalize c.val.toNat = v at hb hvalid
  split at hb
  · simp only [List.mem_cons, List.not_mem_nil, or_false] at hb
    rcases hb with rfl | rfl <;> exact hnat _ (by omega) (by omega)
  split at hb
  · simp only [List.mem_cons, List.not_mem_nil, or_false] at hb
    rcases hb with rfl | rfl | rfl <;> exact hnat _ (by omega) (by omega)
  · simp only [List.mem_cons, List.not_mem_nil, or_false] at hb
    rcases hb with rfl | rfl | rfl | rfl <;> exact hnat _ (by omega) (by omega)

/-! ## Texts read by bytes -/

@[simp] theorem bytewise_nil : bytewise [] = [] := rfl

/-- The bytes of joined texts are those of both. -/
@[simp] theorem bytewise_append (a b : Text) : bytewise (a ++ b) = bytewise a ++ bytewise b := by
  simp [bytewise, utf8Bytes]

/-- A text has as many characters by bytes as it has bytes. -/
@[simp] theorem length_bytewise (text : Text) : (bytewise text).length = byteLength text := by
  rw [bytewise, List.length_map, length_utf8Bytes]

/-- An ASCII character at the head is read as it is. -/
theorem bytewise_cons_of_ascii {c : Char} (h : isNonAscii c = false) (rest : Text) :
    bytewise (c :: rest) = c :: bytewise rest := by
  have hc : Char.ofUInt8 (UInt8.ofNat c.toNat) = c := by
    apply Char.toNat_inj.1
    rw [toNat_ofUInt8, UInt8.toNat_ofNat']
    have := isNonAscii_eq_false.1 h
    omega
  simp only [bytewise, utf8Bytes, List.flatMap_cons, utf8EncodeChar_of_ascii h, List.cons_append,
    List.nil_append, List.map_cons, hc]

/-- Any other character is read as characters that are not ASCII, one at least. -/
theorem bytewise_cons_of_nonAscii {c : Char} (h : isNonAscii c = true) (rest : Text) :
    ∃ d more, bytewise (c :: rest) = d :: (more ++ bytewise rest) ∧ isNonAscii d = true ∧
      (∀ e ∈ more, isNonAscii e = true) ∧ more.length + 1 = c.utf8Size := by
  obtain ⟨lead, bytes, hbytes, -⟩ := leadWidth_utf8EncodeChar c
  have hle : ∀ byte ∈ String.utf8EncodeChar c, 128 ≤ byte.toNat := fun _ hb =>
    le_of_mem_utf8EncodeChar h hb
  have hlen := String.length_utf8EncodeChar c
  rw [hbytes] at hle hlen
  refine ⟨Char.ofUInt8 lead, bytes.map Char.ofUInt8, ?_, ?_, ?_, ?_⟩
  · simp [bytewise, utf8Bytes, hbytes]
  · exact isNonAscii_ofUInt8.2 (hle lead List.mem_cons_self)
  · intro e he
    obtain ⟨byte, hb, rfl⟩ := List.mem_map.1 he
    exact isNonAscii_ofUInt8.2 (hle byte (List.mem_cons_of_mem _ hb))
  · rw [List.length_map]
    exact hlen

end LineLexer
