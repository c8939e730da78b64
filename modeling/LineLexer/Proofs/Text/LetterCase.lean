import LineLexer.Proofs.Text.Bytewise

/-!
# Texts in small letters

What a text in small letters has in common with the text. A test that passes a letter in both cases
or in neither (`CaseBlind`) has the same result at the head of both (`any_head?_foldCase`) and
measures the same run (`runLength_foldCase`), a character that is no letter stands where it stood
(`head?_foldCase_eq_some`), and a search whose test does not heed the letter case finds the same
place (`IsSearch.foldCase`). A dictionary is looked up without heeding it (`contains_foldCase`).

To fold the bytes of a text is to fold its characters (`map_lowerByte_utf8Bytes`), since only the
ASCII characters have bytes of ASCII letters.
-/

namespace LineLexer

/-- A test of characters that passes a letter in both cases or in neither. -/
def CaseBlind (p : Char → Bool) : Prop :=
  ∀ c : Char, p c.toLower = p c

/-- A character that is no ASCII letter. -/
def Caseless (c : Char) : Prop :=
  ¬(65 ≤ c.toNat ∧ c.toNat ≤ 90) ∧ ¬(97 ≤ c.toNat ∧ c.toNat ≤ 122)

instance (c : Char) : Decidable (Caseless c) :=
  inferInstanceAs (Decidable (_ ∧ _))

/-- A text without ASCII letters. -/
def AllCaseless (text : Text) : Prop :=
  ∀ c ∈ text, Caseless c

instance (text : Text) : Decidable (AllCaseless text) :=
  decidable_of_iff (text.all fun c => Caseless c) (by simp [AllCaseless])

/-! ## Tests of characters -/

/-- A character that is no letter comes from itself alone. -/
theorem toLower_eq_iff {c d : Char} (hd : Caseless d) : c.toLower = d ↔ c = d := by
  constructor
  · exact fun h => eq_of_toLower_eq h hd.2
  · rintro rfl
    apply Char.toNat_inj.1
    rw [toNat_toLower, if_neg hd.1]

/-- Making a character small twice does no more than once. -/
theorem toLower_toLower (c : Char) : c.toLower.toLower = c.toLower := by
  apply Char.toNat_inj.1
  have hsmall := toNat_toLower c
  rw [toNat_toLower c.toLower, if_neg]
  split at hsmall <;> omega

/-- A test passes letters in both cases alike if it does so with the twenty-six of them. -/
theorem caseBlind_of_letters {p : Char → Bool}
    (h : ∀ i < 26, p (Char.ofNat (97 + i)) = p (Char.ofNat (65 + i))) : CaseBlind p := by
  intro c
  have hsmall := toNat_toLower c
  split at hsmall
  next hcapital =>
    obtain ⟨i, hi⟩ := Nat.exists_eq_add_of_le hcapital.1
    have hc : c = Char.ofNat (65 + i) := by rw [← hi, Char.ofNat_toNat]
    have hlower : c.toLower = Char.ofNat (97 + i) := by
      rw [← Char.ofNat_toNat c.toLower, hsmall, hi]
      congr 1
      omega
    rw [hlower, h i (by omega), ← hc]
  next => rw [Char.toNat_inj.1 hsmall]

/-- A letter is a blank in neither case. -/
theorem caseBlind_isBlank : CaseBlind isBlank :=
  caseBlind_of_letters (by decide)

/-- A letter is one in both cases. -/
theorem caseBlind_isAlpha : CaseBlind Char.isAlpha :=
  caseBlind_of_letters (by decide)

/-- A letter is a digit in neither case. -/
theorem caseBlind_isDigit : CaseBlind Char.isDigit :=
  caseBlind_of_letters (by decide)

/-- A letter is a letter or digit in both cases. -/
theorem caseBlind_isAlphanum : CaseBlind Char.isAlphanum :=
  caseBlind_of_letters (by decide)

/-- A letter is a hexadecimal digit in both cases or in neither. -/
theorem caseBlind_isHexDigit : CaseBlind isHexDigit :=
  caseBlind_of_letters (by decide)

/-- A letter goes on with a tag name in both cases. -/
theorem caseBlind_isTagNameChar : CaseBlind isTagNameChar :=
  caseBlind_of_letters (by decide)

/-- A character is a quotation mark exactly if it is in small letters. -/
theorem ofChar?_toLower (c : Char) : Quote.ofChar? c.toLower = Quote.ofChar? c := by
  simp (disch := decide) only [Quote.ofChar?, toLower_eq_iff]

/-! ## Runs -/

@[simp] theorem foldCase_cons (c : Char) (rest : Text) :
    foldCase (c :: rest) = c.toLower :: foldCase rest := rfl

/-- Folding a text twice does no more than once. -/
@[simp] theorem foldCase_foldCase (text : Text) : foldCase (foldCase text) = foldCase text := by
  rw [foldCase, foldCase, List.map_map]
  exact List.map_congr_left fun c _ => toLower_toLower c

/-- A part of a folded text is the folded part. -/
theorem take_foldCase (n : Nat) (text : Text) :
    (foldCase text).take n = foldCase (text.take n) :=
  (List.map_take ..).symm

/-- The rest of a folded text is the folded rest. -/
theorem drop_foldCase (n : Nat) (text : Text) :
    (foldCase text).drop n = foldCase (text.drop n) :=
  (List.map_drop ..).symm

/-- A run that no test of letters by their case ends is the same in small letters. -/
theorem takeWhile_foldCase {p : Char → Bool} (hp : CaseBlind p) (text : Text) :
    (foldCase text).takeWhile p = foldCase (text.takeWhile p) := by
  rw [foldCase, List.takeWhile_map, show p ∘ Char.toLower = p from funext hp]
  rfl

/-- A run has the same length in small letters. -/
theorem runLength_foldCase {p : Char → Bool} (hp : CaseBlind p) (text : Text) :
    runLength p (foldCase text) = runLength p text := by
  rw [runLength, takeWhile_foldCase hp, length_foldCase, runLength]

/-- A test of the first character has the same result in small letters. -/
theorem any_head?_foldCase {p : Char → Bool} (hp : CaseBlind p) (text : Text) :
    (foldCase text).head?.any p = text.head?.any p := by
  cases text with
  | nil => rfl
  | cons c rest => exact hp c

/-- A character that is no letter is the first one of a text exactly if it is in small letters. -/
theorem head?_foldCase_eq_some {d : Char} (hd : Caseless d) (text : Text) :
    (foldCase text).head? = some d ↔ text.head? = some d := by
  cases text with
  | nil => exact Iff.rfl
  | cons c rest =>
    rw [foldCase_cons, List.head?_cons, List.head?_cons, Option.some_inj, Option.some_inj,
      toLower_eq_iff hd]

/-- The first character compares with one that is no letter as it does in small letters. -/
theorem head?_foldCase_beq_some {d : Char} (hd : Caseless d) (text : Text) :
    ((foldCase text).head? == some d) = (text.head? == some d) := by
  rw [Bool.eq_iff_iff, beq_iff_eq, beq_iff_eq, head?_foldCase_eq_some hd]

/-- A text without letters is at the head of a text exactly if it is in small letters. -/
theorem isPrefixOf_foldCase {first : Text} (h : AllCaseless first) (text : Text) :
    first.isPrefixOf (foldCase text) = first.isPrefixOf text := by
  induction first generalizing text with
  | nil => rfl
  | cons d first ih =>
    cases text with
    | nil => rfl
    | cons c rest =>
      have hhead : (d == c.toLower) = (d == c) := by
        rw [Bool.eq_iff_iff, beq_iff_eq, beq_iff_eq, eq_comm, eq_comm (a := d)]
        exact toLower_eq_iff (h d List.mem_cons_self)
      rw [foldCase_cons, List.isPrefixOf, List.isPrefixOf, hhead,
        ih fun e he => h e (List.mem_cons_of_mem _ he)]

/-! ## Searches -/

/-- A search whose test does not heed the letter case finds the same place in small letters. -/
theorem IsSearch.foldCase {search : Text → Option Nat} {test : Text → Bool}
    (h : IsSearch search test) (hfold : ∀ text, test (foldCase text) = test text) (text : Text) :
    search (LineLexer.foldCase text) = search text := by
  induction text with
  | nil => rfl
  | cons c rest ih => rw [foldCase_cons, h.cons, h.cons, ← foldCase_cons, hfold, ih]

/-- A delimiter without letters is found at the same place in small letters. -/
theorem indexOf?_foldCase {needle : Text} (hne : needle ≠ []) (h : AllCaseless needle)
    (text : Text) : indexOf? needle (foldCase text) = indexOf? needle text :=
  (isSearch_indexOf? hne).foldCase (isPrefixOf_foldCase h) text

/-- A delimiter without letters is passed at the same place in small letters. -/
theorem widthThrough?_foldCase {needle : Text} (hne : needle ≠ []) (h : AllCaseless needle)
    (text : Text) : widthThrough? needle (foldCase text) = widthThrough? needle text := by
  rw [widthThrough?, indexOf?_foldCase hne h, widthThrough?]

/-- What a text starts with, letter case aside, it starts with in small letters. -/
theorem startsWithFolded_foldCase (head text : Text) :
    startsWithFolded head (foldCase text) = startsWithFolded head text := by
  rw [startsWithFolded, take_foldCase, foldCase_foldCase, startsWithFolded]

/-- A text is at a closing tag exactly if it is in small letters. -/
theorem atClosingTag_foldCase (tag text : Text) :
    atClosingTag tag (foldCase text) = atClosingTag tag text := by
  rw [atClosingTag, startsWithFolded_foldCase, drop_foldCase,
    any_head?_foldCase caseBlind_isTagNameChar, atClosingTag]

/-- A closing tag is found at the same place in small letters. -/
theorem closingTagIndex?_foldCase (tag text : Text) :
    closingTagIndex? tag (foldCase text) = closingTagIndex? tag text := by
  refine (isSearch_closingTagIndex? tag).foldCase (fun text => ?_) text
  rw [atClosingTag_foldCase, head?_foldCase_beq_some (by decide)]

/-- The body of a comment has the same width in small letters. -/
theorem commentWidth?_foldCase (tag body : Text) :
    commentWidth? tag (foldCase body) = commentWidth? tag body := by
  rw [commentWidth?, indexOf?_foldCase (by decide) (by decide), closingTagIndex?_foldCase,
    commentWidth?]

/-! ## Dictionaries -/

/-- A name compares with an entry as it does in small letters. -/
theorem compareFolded_foldCase (entry name : Text) :
    compareFolded entry (foldCase name) = compareFolded entry name := by
  induction entry generalizing name with
  | nil => cases name <;> rfl
  | cons a entry ih =>
    cases name with
    | nil => rfl
    | cons b name => rw [foldCase_cons, compareFolded, compareFolded, toLower_toLower, ih]

namespace Dictionary

variable {α : Type} (dictionary : Dictionary α) (name : Text)

/-- A name has the same value in small letters. -/
theorem find?_foldCase : dictionary.find? (foldCase name) = dictionary.find? name := by
  have hbetween : ∀ low high, dictionary.findBetween? (foldCase name) low high =
      dictionary.findBetween? name low high := by
    intro low high
    fun_induction findBetween? dictionary name low high with
    | case1 low high hlt hnone => rw [findBetween?, dif_pos hlt, hnone]
    | case2 low high hlt entry value hentry heq =>
      simp only [findBetween?, dif_pos hlt, hentry, compareFolded_foldCase, heq]
    | case3 low high hlt entry value hentry hbefore ih =>
      rw [findBetween?, dif_pos hlt, hentry]
      simp only [compareFolded_foldCase, hbefore, ih]
    | case4 low high hlt entry value hentry hafter ih =>
      rw [findBetween?, dif_pos hlt, hentry]
      simp only [compareFolded_foldCase, hafter, ih]
    | case5 low high hlt => rw [findBetween?, dif_neg hlt]
  exact hbetween _ _

/-- A dictionary holds a name exactly if it holds it in small letters. -/
theorem contains_foldCase : dictionary.contains (foldCase name) = dictionary.contains name := by
  rw [contains, find?_foldCase, contains]

end Dictionary

/-! ## Bytes -/

/-- A byte, as a small letter if it is the code of a capital one. -/
def lowerByte (byte : UInt8) : UInt8 :=
  if 65 ≤ byte ∧ byte ≤ 90 then byte + 32 else byte

/-- Folding a byte adds to the codes of capitals; all else stays. -/
theorem toNat_lowerByte (byte : UInt8) :
    (lowerByte byte).toNat =
      if 65 ≤ byte.toNat ∧ byte.toNat ≤ 90 then byte.toNat + 32 else byte.toNat := by
  have hcapital : (65 ≤ byte ∧ byte ≤ 90) ↔ 65 ≤ byte.toNat ∧ byte.toNat ≤ 90 := by
    rw [UInt8.le_iff_toNat_le, UInt8.le_iff_toNat_le]
    rfl
  unfold lowerByte
  split
  next h =>
    have h := hcapital.1 h
    have h32 : (32 : UInt8).toNat = 32 := rfl
    rw [if_pos h, UInt8.toNat_add, h32, Nat.mod_eq_of_lt (by omega)]
  next h => rw [if_neg fun hn => h (hcapital.2 hn)]

/-- The bytes of a character in small letters. -/
theorem map_lowerByte_utf8EncodeChar (c : Char) :
    (String.utf8EncodeChar c).map lowerByte = String.utf8EncodeChar c.toLower := by
  cases hascii : isNonAscii c with
  | false =>
    have hlt := isNonAscii_eq_false.1 hascii
    have hsmall := toNat_toLower c
    have hcode : (UInt8.ofNat c.toNat).toNat = c.toNat := by
      rw [UInt8.toNat_ofNat', Nat.mod_eq_of_lt (by omega)]
    have hcodeSmall : (UInt8.ofNat c.toLower.toNat).toNat = c.toLower.toNat := by
      rw [UInt8.toNat_ofNat', Nat.mod_eq_of_lt (by split at hsmall <;> omega)]
    rw [utf8EncodeChar_of_ascii hascii, utf8EncodeChar_of_ascii (by rwa [isNonAscii_toLower]),
      List.map_singleton, List.singleton_inj, ← UInt8.toNat_inj, toNat_lowerByte, hcode,
      hcodeSmall, hsmall]
  | true =>
    have hsame : c.toLower = c := by
      have hle := isNonAscii_iff.1 hascii
      apply Char.toNat_inj.1
      rw [toNat_toLower, if_neg (by omega)]
    have hkeep : ∀ byte ∈ String.utf8EncodeChar c, lowerByte byte = byte := by
      intro byte hbyte
      have hle := le_of_mem_utf8EncodeChar hascii hbyte
      rw [← UInt8.toNat_inj, toNat_lowerByte, if_neg (by omega)]
    rw [hsame, List.map_congr_left hkeep, List.map_id']

/-- Folding the bytes of a text is folding the text. -/
theorem map_lowerByte_utf8Bytes (text : Text) :
    (utf8Bytes text).map lowerByte = utf8Bytes (foldCase text) := by
  simp [utf8Bytes, foldCase, List.map_flatMap, List.flatMap_map, map_lowerByte_utf8EncodeChar]

/-- Folding a text keeps its length in bytes. -/
theorem byteLength_foldCase (text : Text) : byteLength (foldCase text) = byteLength text := by
  rw [← length_utf8Bytes, ← map_lowerByte_utf8Bytes, List.length_map, length_utf8Bytes]

/-- A text has bytes of its own. -/
theorem utf8Bytes_inj {text other : Text} : utf8Bytes text = utf8Bytes other ↔ text = other := by
  constructor
  · intro h
    have hencode : text.utf8Encode = other.utf8Encode := congrArg List.toByteArray h
    have hdecode := congrArg ByteArray.utf8Decode? hencode
    rw [List.utf8Decode?_utf8Encode, List.utf8Decode?_utf8Encode] at hdecode
    simpa using hdecode
  · exact congrArg utf8Bytes

end LineLexer
