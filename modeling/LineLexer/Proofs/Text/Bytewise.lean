import LineLexer.Grammar.Markup.Tag
import LineLexer.Grammar.Markup.Content
import LineLexer.Grammar.Script
import LineLexer.Grammar.Style
import LineLexer.Proofs.Text.Fold
import LineLexer.Proofs.Text.Utf8

/-!
# Texts read by bytes

What a text read by bytes has in common with the text. A test that does not tell two characters
above the ASCII range apart (`Uniform`) has the same result at the head of both
(`any_head?_bytewise`), a run that satisfies it takes the bytes of the run of characters
(`length_takeWhile_bytewise`), and a search for something that starts with an ASCII character finds
the same place (`IsSearch.bytewise`).
-/

namespace LineLexer

/-- A test of characters that treats all those above the ASCII range alike. -/
def Uniform (p : Char → Bool) : Prop :=
  ∀ c d, isNonAscii c = true → isNonAscii d = true → p c = p d

/-- A test that only ASCII characters pass. -/
def AsciiOnly (p : Char → Bool) : Prop :=
  ∀ c, isNonAscii c = true → p c = false

/-- A text of ASCII characters. -/
def AllAscii (text : Text) : Prop :=
  ∀ c ∈ text, isNonAscii c = false

instance (text : Text) : Decidable (AllAscii text) :=
  decidable_of_iff (text.all fun c => !isNonAscii c) (by simp [AllAscii])

/-! ## Tests of characters -/

/-- A test that only ASCII characters pass treats all others alike. -/
theorem AsciiOnly.uniform {p : Char → Bool} (h : AsciiOnly p) : Uniform p :=
  fun c d hc hd => (h c hc).trans (h d hd).symm

/-- A character that passes a test of ASCII characters is one. -/
theorem AsciiOnly.isNonAscii_eq_false {p : Char → Bool} (h : AsciiOnly p) {c : Char}
    (hc : p c = true) : isNonAscii c = false := by
  cases hna : isNonAscii c with
  | false => rfl
  | true =>
    rw [h c hna] at hc
    cases hc

/-- What is not above the ASCII range differs from what is. -/
theorem beq_eq_false_of_nonAscii {c : Char} (hc : isNonAscii c = true) (x : Char)
    (hx : isNonAscii x = false) : (c == x) = false := by
  rw [beq_eq_false_iff_ne]
  rintro rfl
  rw [hc] at hx
  cases hx

/-- Comparing with an ASCII character is a test that only ASCII characters pass. -/
theorem asciiOnly_beq {x : Char} (hx : isNonAscii x = false) : AsciiOnly (· == x) :=
  fun _ hc => beq_eq_false_of_nonAscii hc x hx

/-- No character above the ASCII range is a letter. -/
theorem asciiOnly_isAlpha : AsciiOnly Char.isAlpha := by
  intro c hc
  have h128 : 128 ≤ c.val.toNat := isNonAscii_iff.1 hc
  delta Char.isAlpha Char.isUpper Char.isLower
  simp only [Bool.or_eq_false_iff, Bool.and_eq_false_iff, decide_eq_false_iff_not, ge_iff_le,
    UInt32.le_iff_toNat_le, UInt32.reduceToNat, Char.reduceVal]
  omega

/-- No character above the ASCII range is a digit. -/
theorem asciiOnly_isDigit : AsciiOnly Char.isDigit := by
  intro c hc
  have h128 : 128 ≤ c.val.toNat := isNonAscii_iff.1 hc
  simp only [Char.isDigit, Bool.and_eq_false_iff, decide_eq_false_iff_not, ge_iff_le,
    UInt32.le_iff_toNat_le, UInt32.reduceToNat, Char.reduceVal]
  omega

/-- No character above the ASCII range is a letter or digit. -/
theorem asciiOnly_isAlphanum : AsciiOnly Char.isAlphanum := by
  intro c hc
  rw [Char.isAlphanum, asciiOnly_isAlpha c hc, asciiOnly_isDigit c hc]
  rfl

/-- Blanks are ASCII characters. -/
theorem asciiOnly_isBlank : AsciiOnly isBlank := by
  intro c hc
  simp (disch := decide) [isBlank, beq_eq_false_of_nonAscii hc]

/-- Octal digits are ASCII characters. -/
theorem asciiOnly_isOctalDigit : AsciiOnly isOctalDigit := by
  intro c hc
  have h128 : 128 ≤ c.val.toNat := isNonAscii_iff.1 hc
  simp only [isOctalDigit, Bool.and_eq_false_iff, decide_eq_false_iff_not, Char.le_def,
    UInt32.le_iff_toNat_le, UInt32.reduceToNat, Char.reduceVal]
  omega

/-- Hexadecimal digits are ASCII characters. -/
theorem asciiOnly_isHexDigit : AsciiOnly isHexDigit := by
  intro c hc
  have h128 : 128 ≤ c.val.toNat := isNonAscii_iff.1 hc
  simp only [isHexDigit, asciiOnly_isDigit c hc, Bool.false_or, Bool.or_eq_false_iff,
    Bool.and_eq_false_iff, decide_eq_false_iff_not, Char.le_def, UInt32.le_iff_toNat_le,
    UInt32.reduceToNat, Char.reduceVal]
  omega

/-- All characters above the ASCII range go on with a tag name. -/
theorem uniform_isTagNameChar : Uniform isTagNameChar := by
  intro c d hc hd
  simp [isTagNameChar, hc, hd]

/-- All characters above the ASCII range start a tag name. -/
theorem uniform_isNameStart : Uniform Markup.isNameStart := by
  intro c d hc hd
  simp [Markup.isNameStart, hc, hd]

/-- All characters above the ASCII range go on with plain text. -/
theorem uniform_isTextChar : Uniform Markup.isTextChar := by
  intro c d hc hd
  simp (disch := decide) [Markup.isTextChar, asciiOnly_isBlank _ hc, asciiOnly_isBlank _ hd, bne,
    beq_eq_false_of_nonAscii hc, beq_eq_false_of_nonAscii hd]

/-- All characters above the ASCII range go on with a word in a start tag. -/
theorem uniform_isAttributeChar : Uniform Markup.isAttributeChar := by
  intro c d hc hd
  simp (disch := decide) [Markup.isAttributeChar, asciiOnly_isBlank _ hc, asciiOnly_isBlank _ hd,
    bne, beq_eq_false_of_nonAscii hc, beq_eq_false_of_nonAscii hd]

/-- All characters above the ASCII range go on with a word in an end tag. -/
theorem uniform_isEndTagChar : Uniform Markup.isEndTagChar := by
  intro c d hc hd
  simp (disch := decide) [Markup.isEndTagChar, asciiOnly_isBlank _ hc, asciiOnly_isBlank _ hd,
    bne, beq_eq_false_of_nonAscii hc, beq_eq_false_of_nonAscii hd]

/-- All characters above the ASCII range are part of names in style sheets. -/
theorem uniform_isNameChar : Uniform Style.isNameChar := by
  intro c d hc hd
  simp [Style.isNameChar, hc, hd]

/-- Operators of style sheets are ASCII characters. -/
theorem asciiOnly_style_isOperatorChar : AsciiOnly Style.isOperatorChar := by
  intro c hc
  simp (disch := decide) [Style.isOperatorChar, beq_eq_false_of_nonAscii hc]

/-- All characters above the ASCII range go on with a word. -/
theorem uniform_isWordChar : Uniform Script.isWordChar := by
  intro c d hc hd
  simp [Script.isWordChar, hc, hd]

/-- All characters above the ASCII range start a word. -/
theorem uniform_isWordStart : Uniform Script.isWordStart := by
  intro c d hc hd
  simp [Script.isWordStart, hc, hd]

/-- Operators of scripts are ASCII characters. -/
theorem asciiOnly_script_isOperatorChar : AsciiOnly Script.isOperatorChar := by
  intro c hc
  simp (disch := decide) [Script.isOperatorChar, beq_eq_false_of_nonAscii hc]

/-! ## Heads and runs -/

/-- A uniform test has the same result at the head of a text and of its bytes. -/
theorem any_head?_bytewise {p : Char → Bool} (hp : Uniform p) (text : Text) :
    (bytewise text).head?.any p = text.head?.any p := by
  cases text with
  | nil => rfl
  | cons c rest =>
    cases hc : isNonAscii c with
    | false => rw [bytewise_cons_of_ascii hc]; rfl
    | true =>
      obtain ⟨d, more, hd, hna, -, -⟩ := bytewise_cons_of_nonAscii hc rest
      rw [hd]
      exact hp d c hna hc

/-- An ASCII character is at the head of a text if it is at the head of its bytes. -/
theorem head?_bytewise_eq_some {x : Char} (hx : isNonAscii x = false) {text : Text} :
    (bytewise text).head? = some x ↔ text.head? = some x := by
  have h := any_head?_bytewise (asciiOnly_beq hx).uniform text
  rw [Bool.eq_iff_iff] at h
  simpa [Option.any_eq_true] using h

/-- A run that satisfies a uniform test takes the bytes of the run of characters. -/
theorem length_takeWhile_bytewise {p : Char → Bool} (hp : Uniform p) (text : Text) :
    ((bytewise text).takeWhile p).length = byteLength (text.takeWhile p) := by
  induction text with
  | nil => rfl
  | cons c rest ih =>
    cases hc : isNonAscii c with
    | false =>
      rw [bytewise_cons_of_ascii hc, List.takeWhile_cons, List.takeWhile_cons]
      split
      · rw [List.length_cons, ih, byteLength_cons, utf8Size_of_ascii hc, Nat.add_comm]
      · rfl
    | true =>
      obtain ⟨d, more, hd, hna, hmore, hlen⟩ := bytewise_cons_of_nonAscii hc rest
      rw [hd, List.takeWhile_cons, List.takeWhile_cons, hp d c hna hc]
      split
      next hpc =>
        have hall : ∀ e ∈ more, p e = true := fun e he => (hp e c (hmore e he) hc).trans hpc
        rw [List.takeWhile_append_of_pos hall, List.length_cons, List.length_append, ih,
          byteLength_cons, ← hlen]
        omega
      next => rfl

/-! ## ASCII heads -/

/-- A text of ASCII characters is its bytes. -/
theorem bytewise_of_allAscii {text : Text} (h : AllAscii text) : bytewise text = text := by
  induction text with
  | nil => rfl
  | cons c rest ih =>
    rw [bytewise_cons_of_ascii (h c List.mem_cons_self),
      ih fun d hd => h d (List.mem_cons_of_mem _ hd)]

/-- A text of ASCII characters takes as many bytes as it has characters. -/
theorem byteLength_of_allAscii {text : Text} (h : AllAscii text) :
    byteLength text = text.length := by
  rw [← length_bytewise, bytewise_of_allAscii h]

/-- A head of ASCII characters is one of the text exactly if it is one of its bytes, and what
follows in the bytes are those of what follows in the text. -/
theorem bytewise_eq_append_iff {first : Text} (h : AllAscii first) {text rest : Text} :
    bytewise text = first ++ rest ↔ ∃ tail, text = first ++ tail ∧ rest = bytewise tail := by
  constructor
  · induction first generalizing text with
    | nil =>
      intro ht
      exact ⟨text, rfl, ht.symm⟩
    | cons x first ih =>
      intro ht
      have hx := h x List.mem_cons_self
      cases text with
      | nil => cases ht
      | cons c text =>
        cases hc : isNonAscii c with
        | false =>
          rw [bytewise_cons_of_ascii hc] at ht
          obtain ⟨rfl, htail⟩ := List.cons.inj ht
          obtain ⟨tail, rfl, hr⟩ := ih (fun d hd => h d (List.mem_cons_of_mem _ hd)) htail
          exact ⟨tail, rfl, hr⟩
        | true =>
          -- The first byte of such a character is above the ASCII range, and `x` is not.
          obtain ⟨d, more, hd, hna, -, -⟩ := bytewise_cons_of_nonAscii hc text
          rw [hd] at ht
          obtain ⟨rfl, -⟩ := List.cons.inj ht
          rw [hx] at hna
          cases hna
  · rintro ⟨tail, rfl, rfl⟩
    rw [bytewise_append, bytewise_of_allAscii h]

/-- An ASCII text is a head of the bytes of a text exactly if it is one of the text. -/
theorem isPrefixOf_bytewise {first : Text} (h : AllAscii first) (text : Text) :
    first.isPrefixOf (bytewise text) = first.isPrefixOf text := by
  rw [Bool.eq_iff_iff, List.isPrefixOf_iff_prefix, List.isPrefixOf_iff_prefix]
  constructor
  · rintro ⟨rest, hrest⟩
    obtain ⟨tail, rfl, -⟩ := (bytewise_eq_append_iff h).1 hrest.symm
    exact List.prefix_append ..
  · rintro ⟨tail, rfl⟩
    rw [bytewise_append, bytewise_of_allAscii h]
    exact List.prefix_append ..

/-- Dropping an ASCII head of the text drops as much of its bytes. -/
theorem drop_bytewise_append {first : Text} (h : AllAscii first) (rest : Text) :
    (bytewise (first ++ rest)).drop first.length = bytewise rest := by
  rw [bytewise_append, bytewise_of_allAscii h, List.drop_left]

/-- A character that becomes an ASCII one in small letters is one. -/
theorem isNonAscii_toLower (c : Char) : isNonAscii c.toLower = isNonAscii c := by
  have h := toNat_toLower c
  rw [Bool.eq_iff_iff, isNonAscii_iff, isNonAscii_iff]
  split at h <;> omega

/-- A text that is an ASCII one in small letters is of ASCII characters. -/
theorem allAscii_of_foldCase_eq {first head : Text} (h : AllAscii head)
    (hf : foldCase first = foldCase head) : AllAscii first := by
  intro c hc
  have hmem : c.toLower ∈ foldCase head := hf ▸ List.mem_map_of_mem hc
  obtain ⟨d, hd, he⟩ := List.mem_map.1 hmem
  rw [← isNonAscii_toLower, ← he, isNonAscii_toLower]
  exact h d hd

/-- The characters that an ASCII text is found in, letter case aside, are ASCII characters. -/
theorem allAscii_take_of_startsWithFolded {head text : Text} (h : AllAscii head)
    (hs : startsWithFolded head text = true) : AllAscii (text.take head.length) := by
  obtain ⟨first, rest, rfl, hlen, hf⟩ := startsWithFolded_iff.1 hs
  rw [← hlen, List.take_left]
  exact allAscii_of_foldCase_eq h hf

/-- A text starts with an ASCII one, letter case aside, exactly if its bytes do. -/
theorem startsWithFolded_bytewise {head : Text} (h : AllAscii head) (text : Text) :
    startsWithFolded head (bytewise text) = startsWithFolded head text := by
  rw [Bool.eq_iff_iff, startsWithFolded_iff, startsWithFolded_iff]
  constructor
  · rintro ⟨first, rest, ht, hlen, hf⟩
    obtain ⟨tail, rfl, -⟩ := (bytewise_eq_append_iff (allAscii_of_foldCase_eq h hf)).1 ht
    exact ⟨first, tail, rfl, hlen, hf⟩
  · rintro ⟨first, tail, rfl, hlen, hf⟩
    refine ⟨first, bytewise tail, ?_, hlen, hf⟩
    rw [bytewise_append, bytewise_of_allAscii (allAscii_of_foldCase_eq h hf)]

/-- A text is at an ASCII closing tag exactly if its bytes are. -/
theorem atClosingTag_bytewise {tag : Text} (h : AllAscii tag) (text : Text) :
    atClosingTag tag (bytewise text) = atClosingTag tag text := by
  unfold atClosingTag
  rw [startsWithFolded_bytewise h]
  cases hs : startsWithFolded tag text with
  | false => rfl
  | true =>
    obtain ⟨first, rest, rfl, hlen, hf⟩ := startsWithFolded_iff.1 hs
    rw [← hlen, drop_bytewise_append (allAscii_of_foldCase_eq h hf), List.drop_left,
      any_head?_bytewise uniform_isTagNameChar]

/-! ## Runs of ASCII characters -/

/-- The characters of a run are the first ones, as many as it is long. -/
theorem take_runLength (p : Char → Bool) (text : Text) :
    text.take (runLength p text) = text.takeWhile p :=
  (List.prefix_iff_eq_take.1 (List.takeWhile_prefix p)).symm

/-- With one more character before it, a run is that character and its own ones. -/
theorem take_runLength_succ (p : Char → Bool) (c : Char) (rest : Text) :
    (c :: rest).take (runLength p rest + 1) = c :: rest.takeWhile p := by
  rw [List.take_succ_cons, take_runLength]

/-- A run that only ASCII characters pass is of such. -/
theorem allAscii_takeWhile {p : Char → Bool} (hp : AsciiOnly p) (text : Text) :
    AllAscii (text.takeWhile p) := by
  intro c hc
  exact hp.isNonAscii_eq_false (List.all_eq_true.1 List.all_takeWhile c hc)

/-- The characters that a run of ASCII characters takes are of such. -/
theorem allAscii_take_runLength {p : Char → Bool} (hp : AsciiOnly p) (text : Text) :
    AllAscii (text.take (runLength p text)) := by
  rw [take_runLength]
  exact allAscii_takeWhile hp text

/-- A run that only ASCII characters pass is the same in the bytes. -/
theorem takeWhile_bytewise {p : Char → Bool} (hp : AsciiOnly p) (text : Text) :
    (bytewise text).takeWhile p = text.takeWhile p := by
  induction text with
  | nil => rfl
  | cons c rest ih =>
    cases hc : isNonAscii c with
    | false => rw [bytewise_cons_of_ascii hc, List.takeWhile_cons, List.takeWhile_cons, ih]
    | true =>
      obtain ⟨d, more, hd, hna, -, -⟩ := bytewise_cons_of_nonAscii hc rest
      rw [hd, List.takeWhile_cons, List.takeWhile_cons, hp d hna, hp c hc]
      rfl

/-- A run that only ASCII characters pass is as long in the bytes. -/
theorem runLength_bytewise {p : Char → Bool} (hp : AsciiOnly p) (text : Text) :
    runLength p (bytewise text) = runLength p text := by
  rw [runLength, runLength, takeWhile_bytewise hp]

/-- Behind ASCII characters the bytes are those of the rest. -/
theorem drop_bytewise {text : Text} {n : Nat} (h : AllAscii (text.take n)) :
    (bytewise text).drop n = bytewise (text.drop n) := by
  have happ : bytewise text = text.take n ++ bytewise (text.drop n) := by
    rw [← bytewise_of_allAscii h, ← bytewise_append, List.take_append_drop]
  rcases Nat.le_total n text.length with hn | hn
  · have hlen : (text.take n).length = n := by rw [List.length_take, Nat.min_eq_left hn]
    rw [happ, List.drop_append_of_le_length (Nat.le_of_eq hlen.symm),
      List.drop_of_length_le (Nat.le_of_eq hlen), List.nil_append]
  · rw [List.take_of_length_le hn] at h
    rw [bytewise_of_allAscii h, List.drop_of_length_le hn, bytewise_nil]

/-- Characters in a row are ASCII if those of both parts are. -/
theorem allAscii_take_add {text : Text} {m n : Nat} (hm : AllAscii (text.take m))
    (hn : AllAscii ((text.drop m).take n)) : AllAscii (text.take (m + n)) := by
  intro c hc
  rw [List.take_add, List.mem_append] at hc
  exact hc.elim (hm c) (hn c)

/-- The first character is ASCII if it is known to be. -/
theorem allAscii_take_one {text : Text} {x : Char} (hx : isNonAscii x = false)
    (h : text.head? = some x) : AllAscii (text.take 1) := by
  obtain ⟨rest, rfl⟩ : ∃ rest, text = x :: rest := by
    cases text with
    | nil => cases h
    | cons c rest =>
      cases h
      exact ⟨rest, rfl⟩
  simpa [AllAscii] using hx

/-! ## Searches -/

/-- A search for the first place where a test of the rest holds. -/
structure IsSearch (search : Text → Option Nat) (test : Text → Bool) : Prop where
  nil : search [] = none
  cons : ∀ c rest,
    search (c :: rest) = if test (c :: rest) then some 0 else (search rest).map (· + 1)

/-- Looking for a needle is a search. -/
theorem isSearch_indexOf? {needle : Text} (h : needle ≠ []) :
    IsSearch (indexOf? needle) (needle.isPrefixOf ·) where
  nil := by simp [indexOf?, h]
  cons _ _ := rfl

/-- Looking for a closing tag is a search. -/
theorem isSearch_closingTagIndex? (tag : Text) :
    IsSearch (closingTagIndex? tag)
      fun text => text.head? == some '<' && atClosingTag tag text where
  nil := rfl
  cons c rest := by simp [closingTagIndex?]

/-- A search steps over characters where its test fails. -/
theorem IsSearch.append {search : Text → Option Nat} {test : Text → Bool} (h : IsSearch search test)
    {skipped : Text} (rest : Text) (hskip : ∀ c tail, c ∈ skipped → test (c :: tail) = false) :
    search (skipped ++ rest) = (search rest).map (· + skipped.length) := by
  induction skipped with
  | nil => simp
  | cons c skipped ih =>
    have hc := hskip c (skipped ++ rest) List.mem_cons_self
    rw [List.cons_append, h.cons, hc, ih fun d tail hd => hskip d tail (List.mem_cons_of_mem _ hd)]
    simp [Function.comp_def, Nat.add_assoc]

/-- A search whose test fails above the ASCII range and holds of bytes as of texts finds the same
place in the bytes of a text as in the text. -/
theorem IsSearch.bytewise {search : Text → Option Nat} {test : Text → Bool}
    (h : IsSearch search test) (hbytes : ∀ text, test (bytewise text) = test text)
    (hascii : ∀ c tail, isNonAscii c = true → test (c :: tail) = false) (text : Text) :
    search (LineLexer.bytewise text) =
      (search text).map fun i => byteLength (text.take i) := by
  induction text with
  | nil => simp [h.nil]
  | cons c rest ih =>
    cases hc : isNonAscii c with
    | false =>
      have htest := hbytes (c :: rest)
      rw [bytewise_cons_of_ascii hc] at htest ⊢
      rw [h.cons, h.cons, htest]
      split
      · simp
      · simp [ih, Function.comp_def, utf8Size_of_ascii hc, Nat.add_comm]
    | true =>
      -- The test fails at each byte of the character, as it does at the character.
      obtain ⟨d, more, hd, hna, hmore, hlen⟩ := bytewise_cons_of_nonAscii hc rest
      have hskip : ∀ e tail, e ∈ d :: more → test (e :: tail) = false := by
        intro e tail he
        rcases List.mem_cons.1 he with rfl | he
        · exact hascii e tail hna
        · exact hascii e tail (hmore e he)
      rw [hd, ← List.cons_append, h.append _ hskip, ih, h.cons, hascii c rest hc]
      simp [Function.comp_def, hlen, Nat.add_comm]

/-- A needle that starts with an ASCII character and is of such is found where it is in the text. -/
theorem indexOf?_bytewise {needle : Text} (hne : needle ≠ []) (h : AllAscii needle) (text : Text) :
    indexOf? needle (bytewise text) =
      (indexOf? needle text).map fun i => byteLength (text.take i) := by
  apply (isSearch_indexOf? hne).bytewise (isPrefixOf_bytewise h)
  intro c tail hc
  obtain ⟨x, needle, rfl⟩ := List.exists_cons_of_ne_nil hne
  have hx := beq_eq_false_of_nonAscii hc x (h x List.mem_cons_self)
  rw [beq_eq_false_iff_ne] at hx
  simp [List.isPrefixOf, Ne.symm hx]

/-- A closing tag is found where it is in the text. -/
theorem closingTagIndex?_bytewise {tag : Text} (h : AllAscii tag) (text : Text) :
    closingTagIndex? tag (bytewise text) =
      (closingTagIndex? tag text).map fun i => byteLength (text.take i) := by
  apply (isSearch_closingTagIndex? tag).bytewise
  · intro text
    rw [atClosingTag_bytewise h]
    congr 1
    rw [Bool.eq_iff_iff, beq_iff_eq, beq_iff_eq]
    exact head?_bytewise_eq_some (by decide)
  · intro c tail hc
    have hx := beq_eq_false_of_nonAscii hc '<' (by decide)
    rw [beq_eq_false_iff_ne] at hx
    simp [hx]

end LineLexer
