import LineLexer.Proofs.Link.Split
import LineLexer.Proofs.Text.Boundary
import LineLexer.Proofs.Text.Bytewise
import Mathlib.Data.List.Find

/-!
# Measures of bytes

What the grammars measure at the head of a text, taken of its bytes instead. Most constructs are of
ASCII characters only, and then the measure is the same number and the bytes are the characters
(`entityWidth?_bytewise`, `numberWidth?_bytewise`, `operatorWidth_bytewise`). A comment and a link
may have other characters before their end, and then the measure of the bytes is the number of
bytes before the same place (`commentWidth?_bytewise`, `Link.find?_bytewise`).
-/

namespace LineLexer

/-! ## Entity references -/

/-- A numeric entity reference is as wide in the bytes. -/
theorem numericEntityWidth?_bytewise {p : Char → Bool} (hp : AsciiOnly p) (lead : Nat)
    (text : Text) :
    Markup.numericEntityWidth? p lead (bytewise text) = Markup.numericEntityWidth? p lead text := by
  have hrun := allAscii_take_runLength hp text
  have hsemi : (bytewise (text.drop (runLength p text))).head? = some ';' ↔
      (text.drop (runLength p text)).head? = some ';' := head?_bytewise_eq_some (by decide)
  simp only [Markup.numericEntityWidth?, runLength_bytewise hp, drop_bytewise hrun, hsemi]

/-- The digits of a numeric entity reference and its semicolon are ASCII characters. -/
theorem allAscii_numericEntityWidth? {p : Char → Bool} (hp : AsciiOnly p) {lead width : Nat}
    {text : Text} (h : Markup.numericEntityWidth? p lead text = some width) :
    AllAscii (text.take (width - lead)) := by
  have hrun := allAscii_take_runLength hp text
  simp only [Markup.numericEntityWidth?] at h
  split at h
  · cases h
  split at h
  next hsemi =>
    cases h
    rw [show lead + runLength p text + 1 - lead = runLength p text + 1 by omega]
    exact allAscii_take_add hrun (allAscii_take_one (by decide) hsemi)
  next =>
    cases h
    rwa [Nat.add_sub_cancel_left]

/-- An entity reference is as wide in the bytes. -/
theorem entityWidth?_bytewise (text : Text) :
    Markup.entityWidth? (bytewise text) = Markup.entityWidth? text := by
  have hnumber : (bytewise text).head? = some '#' ↔ text.head? = some '#' :=
    head?_bytewise_eq_some (by decide)
  simp only [Markup.entityWidth?, hnumber]
  split
  next hh =>
    have hone : AllAscii (text.take 1) := allAscii_take_one (by decide) hh
    have hsmall : (bytewise (text.drop 1)).head? = some 'x' ↔ (text.drop 1).head? = some 'x' :=
      head?_bytewise_eq_some (by decide)
    have hlarge : (bytewise (text.drop 1)).head? = some 'X' ↔ (text.drop 1).head? = some 'X' :=
      head?_bytewise_eq_some (by decide)
    simp only [drop_bytewise hone, hsmall, hlarge, numericEntityWidth?_bytewise asciiOnly_isDigit]
    split
    next hx =>
      have hmark : AllAscii ((text.drop 1).take 1) := by
        rcases hx with hx | hx <;> exact allAscii_take_one (by decide) hx
      rw [drop_bytewise (allAscii_take_add hone hmark),
        numericEntityWidth?_bytewise asciiOnly_isHexDigit]
    next => rfl
  next =>
    have hrun := allAscii_take_runLength asciiOnly_isAlphanum text
    have hsemi : (bytewise (text.drop (runLength Char.isAlphanum text))).head? = some ';' ↔
        (text.drop (runLength Char.isAlphanum text)).head? = some ';' :=
      head?_bytewise_eq_some (by decide)
    simp only [Markup.namedEntityWidth?, runLength_bytewise asciiOnly_isAlphanum,
      drop_bytewise hrun, any_head?_bytewise asciiOnly_isAlpha.uniform, Bool.and_eq_true,
      beq_iff_eq, hsemi]

/-- An entity reference is of ASCII characters. -/
theorem allAscii_entityWidth? {text : Text} {width : Nat}
    (h : Markup.entityWidth? text = some width) : AllAscii (('&' :: text).take width) := by
  have hamp : AllAscii (('&' :: text).take 1) := allAscii_take_one (x := '&') (by decide) rfl
  unfold Markup.entityWidth? at h
  split at h
  next hh =>
    have hone : AllAscii (text.take 1) := allAscii_take_one (by decide) hh
    split at h
    next hx =>
      have hmark : AllAscii ((text.drop 1).take 1) := by
        rcases hx with hx | hx <;> exact allAscii_take_one (by decide) hx
      have hlt := Markup.lt_of_numericEntityWidth? h
      have hdigits := allAscii_numericEntityWidth? asciiOnly_isHexDigit h
      -- The ampersand, the number sign, the mark of hexadecimal digits, and the digits.
      rw [show width = 1 + ((1 + 1) + (width - 3)) by omega]
      exact allAscii_take_add hamp (allAscii_take_add (allAscii_take_add hone hmark) hdigits)
    next =>
      have hlt := Markup.lt_of_numericEntityWidth? h
      have hdigits := allAscii_numericEntityWidth? asciiOnly_isDigit h
      rw [show width = 1 + (1 + (width - 2)) by omega]
      exact allAscii_take_add hamp (allAscii_take_add hone hdigits)
  next =>
    have hrun := allAscii_take_runLength asciiOnly_isAlphanum text
    simp only [Markup.namedEntityWidth?] at h
    split at h
    next hsemi =>
      simp only [Bool.and_eq_true, beq_iff_eq] at hsemi
      cases h
      rw [Nat.add_comm, show 2 + runLength Char.isAlphanum text =
        1 + (runLength Char.isAlphanum text + 1) by omega]
      exact allAscii_take_add hamp (allAscii_take_add hrun (allAscii_take_one (by decide) hsemi.2))
    next => cases h

/-! ## Numbers and operators -/

/-- A sign is as wide in the bytes. -/
theorem signWidth_bytewise (text : Text) : signWidth (bytewise text) = signWidth text := by
  have hplus : (bytewise text).head? = some '+' ↔ text.head? = some '+' :=
    head?_bytewise_eq_some (by decide)
  have hminus : (bytewise text).head? = some '-' ↔ text.head? = some '-' :=
    head?_bytewise_eq_some (by decide)
  simp only [signWidth, hplus, hminus]

/-- A sign is an ASCII character. -/
theorem allAscii_signWidth (text : Text) : AllAscii (text.take (signWidth text)) := by
  unfold signWidth
  split
  next h => rcases h with h | h <;> exact allAscii_take_one (by decide) h
  next => simp [AllAscii]

/-- A point and the digits after it are as wide in the bytes. -/
theorem fractionWidth_bytewise (text : Text) :
    fractionWidth (bytewise text) = fractionWidth text := by
  have hpoint : (bytewise text).head? = some '.' ↔ text.head? = some '.' :=
    head?_bytewise_eq_some (by decide)
  simp only [fractionWidth, hpoint]
  split
  next h =>
    rw [drop_bytewise (allAscii_take_one (by decide) h), digitsWidth, digitsWidth,
      runLength_bytewise asciiOnly_isDigit]
  next => rfl

/-- A point and the digits after it are ASCII characters. -/
theorem allAscii_fractionWidth (text : Text) : AllAscii (text.take (fractionWidth text)) := by
  unfold fractionWidth
  split
  next h =>
    exact allAscii_take_add (allAscii_take_one (by decide) h)
      (allAscii_take_runLength asciiOnly_isDigit _)
  next => simp [AllAscii]

/-- The number of a style sheet is as wide in the bytes. -/
theorem numberWidth?_bytewise (text : Text) :
    Style.numberWidth? (bytewise text) = Style.numberWidth? text := by
  have hsign := allAscii_signWidth text
  have hwhole := allAscii_take_runLength asciiOnly_isDigit (text.drop (signWidth text))
  simp only [Style.numberWidth?, signWidth_bytewise, drop_bytewise hsign, digitsWidth,
    runLength_bytewise asciiOnly_isDigit, drop_bytewise (allAscii_take_add hsign hwhole),
    fractionWidth_bytewise]
  rfl

/-- The number of a style sheet is of ASCII characters. -/
theorem allAscii_numberWidth? {text : Text} {width : Nat}
    (h : Style.numberWidth? text = some width) : AllAscii (text.take width) := by
  simp only [Style.numberWidth?] at h
  split at h
  · cases h
  · cases h
    have hsign := allAscii_signWidth text
    have hwhole := allAscii_take_runLength asciiOnly_isDigit (text.drop (signWidth text))
    exact allAscii_take_add (allAscii_take_add hsign hwhole) (allAscii_fractionWidth _)

/-- The first of some ASCII texts that a text starts with is the first that its bytes start
with. -/
theorem find?_isPrefixOf_bytewise {heads : List Text} (h : ∀ head ∈ heads, AllAscii head)
    (text : Text) :
    heads.find? (·.isPrefixOf (bytewise text)) = heads.find? (·.isPrefixOf text) :=
  List.find?_congr fun head hm => isPrefixOf_bytewise (h head hm) text

/-- Operators are of ASCII characters. -/
theorem allAscii_of_mem_operators {operator : Text} (h : operator ∈ operators) :
    AllAscii operator := by
  revert operator
  decide

/-- An operator is as wide in the bytes. -/
theorem operatorWidth_bytewise (text : Text) :
    operatorWidth (bytewise text) = operatorWidth text := by
  rw [operatorWidth, find?_isPrefixOf_bytewise (fun _ => allAscii_of_mem_operators), operatorWidth]

/-- An operator that an ASCII character starts is of ASCII characters. -/
theorem allAscii_operatorWidth {c : Char} (hc : isNonAscii c = false) (rest : Text) :
    AllAscii ((c :: rest).take (operatorWidth (c :: rest))) := by
  unfold operatorWidth
  split
  next operator h =>
    have hpre : operator.isPrefixOf (c :: rest) = true := List.find?_some (p := fun head =>
      List.isPrefixOf head (c :: rest)) h
    rw [← List.prefix_iff_eq_take.1 (List.isPrefixOf_iff_prefix.1 hpre)]
    exact allAscii_of_mem_operators (List.mem_of_find?_eq_some h)
  next => exact allAscii_take_one hc rfl

/-! ## Comments -/

/-- What is found stands where it is found. -/
theorem prefix_drop_of_indexOf? {needle text : Text} {i : Nat} (h : indexOf? needle text = some i) :
    needle <+: text.drop i := by
  induction text generalizing i with
  | nil =>
    simp only [indexOf?] at h
    split at h
    next hn =>
      rw [List.isEmpty_iff.1 hn]
      exact List.nil_prefix
    next => cases h
  | cons c rest ih =>
    simp only [indexOf?] at h
    split at h
    next hp =>
      cases h
      exact List.isPrefixOf_iff_prefix.1 hp
    next =>
      obtain ⟨j, hj, rfl⟩ := Option.map_eq_some_iff.1 h
      exact ih hj

/-- The bytes through the end of what is found. -/
theorem byteLength_take_through {needle text : Text} {i : Nat}
    (h : indexOf? needle text = some i) :
    byteLength (text.take (i + needle.length)) = byteLength (text.take i) + byteLength needle := by
  rw [List.take_add, ← List.prefix_iff_eq_take.1 (prefix_drop_of_indexOf? h), byteLength_append]

/-- An ASCII text that is found takes a byte for each character. -/
theorem byteLength_take_indexOf? {needle text : Text} (hn : AllAscii needle) {i : Nat}
    (h : indexOf? needle text = some i) :
    byteLength (text.take (i + needle.length)) = byteLength (text.take i) + needle.length := by
  rw [byteLength_take_through h, byteLength_of_allAscii hn]

/-- What is found through its end, in the bytes. -/
theorem widthThrough?_bytewise {needle : Text} (hne : needle ≠ []) (hn : AllAscii needle)
    (text : Text) :
    widthThrough? needle (bytewise text) =
      (widthThrough? needle text).map fun n => byteLength (text.take n) := by
  rw [widthThrough?, widthThrough?, indexOf?_bytewise hne hn, Option.map_map, Option.map_map]
  apply Option.map_congr
  intro i hi
  exact (byteLength_take_indexOf? hn hi).symm

/-- More characters take more bytes. -/
theorem byteLength_take_lt_iff {text : Text} {m n : Nat} (hm : m ≤ text.length)
    (hn : n ≤ text.length) : byteLength (text.take m) < byteLength (text.take n) ↔ m < n := by
  -- No more characters take no more bytes, and each further character takes one at least.
  constructor
  · intro h
    rcases Nat.lt_or_ge m n with hlt | hge
    · exact hlt
    · exact absurd (byteLength_take_le text hge) (Nat.not_le.2 h)
  · intro h
    obtain ⟨k, rfl⟩ := Nat.exists_eq_add_of_lt h
    have hlen : ((text.drop m).take (k + 1)).length = k + 1 := by
      rw [List.length_take, List.length_drop]
      omega
    have hbytes := length_le_byteLength ((text.drop m).take (k + 1))
    rw [Nat.add_assoc, List.take_add, byteLength_append]
    omega

/-- A place that a search finds lies in the text. -/
theorem IsSearch.le {search : Text → Option Nat} {test : Text → Bool} (h : IsSearch search test)
    {text : Text} {i : Nat} (hi : search text = some i) : i ≤ text.length := by
  induction text generalizing i with
  | nil =>
    rw [h.nil] at hi
    cases hi
  | cons c rest ih =>
    rw [h.cons] at hi
    split at hi
    · cases hi
      exact Nat.zero_le _
    · obtain ⟨j, hj, rfl⟩ := Option.map_eq_some_iff.1 hi
      exact Nat.succ_le_succ (ih hj)

/-- The body of a comment through its end, in the bytes. -/
theorem commentWidth?_bytewise {tag : Text} (htag : AllAscii tag) (body : Text) :
    commentWidth? tag (bytewise body) =
      (commentWidth? tag body).map fun n => byteLength (body.take n) := by
  have hend : AllAscii "*/".toList := by decide
  unfold commentWidth?
  rw [indexOf?_bytewise (by decide) hend, closingTagIndex?_bytewise htag]
  -- Both searches find the bytes of the places that they find in the text, in the same order.
  cases hd : indexOf? "*/".toList body with
  | none => cases closingTagIndex? tag body <;> rfl
  | some delimiter =>
    have hthrough : byteLength (body.take (delimiter + 2)) = byteLength (body.take delimiter) + 2 :=
      byteLength_take_indexOf? hend hd
    cases ht : closingTagIndex? tag body with
    | none => exact congrArg some hthrough.symm
    | some index =>
      have hlt := byteLength_take_lt_iff ((isSearch_closingTagIndex? tag).le ht)
        ((isSearch_indexOf? (by decide)).le hd)
      simp only [Option.map_some, hlt]
      split
      · rfl
      · rw [hthrough]

/-! ## Links -/

namespace Link

/-- Link characters are ASCII characters. -/
theorem asciiOnly_isLinkChar : AsciiOnly isLinkChar := by
  intro c hc
  have hmarks : AllAscii "-._~:/?#[]@!$&'()*+,;=%".toList := by decide
  rw [isLinkChar, asciiOnly_isAlphanum c hc, Bool.false_or, List.contains_eq_mem,
    decide_eq_false_iff_not]
  intro hmem
  rw [hmarks c hmem] at hc
  cases hc

/-- A link at the head is as wide in the bytes. -/
theorem width?_bytewise (text : Text) : width? (bytewise text) = width? text := by
  have hmarks : ∀ mark ∈ marks, AllAscii mark := by decide
  rw [width?, find?_isPrefixOf_bytewise hmarks, takeWhile_bytewise asciiOnly_isLinkChar, width?]

/-- A link is of ASCII characters. -/
theorem allAscii_width? {text : Text} {width : Nat} (h : width? text = some width) :
    AllAscii (text.take width) := by
  unfold width? at h
  split at h
  · cases h
  simp only at h
  split at h
  next mark _ _ =>
    cases h
    have hle : trimmedWidth (text.takeWhile isLinkChar) ≤ runLength isLinkChar text := by
      calc trimmedWidth (text.takeWhile isLinkChar)
          ≤ (text.takeWhile isLinkChar).reverse.length := (List.dropWhile_sublist _).length_le
        _ = runLength isLinkChar text := List.length_reverse
    intro c hc
    exact allAscii_take_runLength asciiOnly_isLinkChar text c (List.take_subset_take_left _ hle hc)
  next => cases h

/-- No link starts with a character that is not ASCII. -/
theorem width?_of_nonAscii {c : Char} (hc : isNonAscii c = true) (rest : Text) :
    width? (c :: rest) = none := by
  cases hw : width? (c :: rest) with
  | none => rfl
  | some width =>
    obtain ⟨n, rfl⟩ := Nat.exists_eq_succ_of_ne_zero (Nat.ne_of_gt (width?_bounds hw).1)
    have hascii := allAscii_width? hw c (by simp)
    rw [hc] at hascii
    cases hascii

/-- The search for a link steps over characters that are not ASCII, and a link may follow them. -/
theorem findFrom?_append {skipped : Text} (hskip : ∀ c ∈ skipped, isNonAscii c = true)
    (hne : skipped ≠ []) (free : Bool) (rest : Text) :
    findFrom? free (skipped ++ rest) =
      (findFrom? true rest).map fun found => (found.1 + skipped.length, found.2) := by
  induction skipped generalizing free with
  | nil => exact absurd rfl hne
  | cons c skipped ih =>
    have hc := hskip c List.mem_cons_self
    have hnone : (if free then width? (c :: (skipped ++ rest)) else none) = none := by
      rw [width?_of_nonAscii hc]
      exact ite_self _
    rw [List.cons_append, findFrom?, hnone, asciiOnly_isAlphanum c hc]
    cases skipped with
    | nil => rfl
    | cons d skipped =>
      rw [Bool.not_false, ih (fun e he => hskip e (List.mem_cons_of_mem _ he)) (by simp)]
      simp [Function.comp_def, Nat.add_assoc]

/-- The first link in the bytes of a text. -/
theorem findFrom?_bytewise (free : Bool) (text : Text) :
    findFrom? free (bytewise text) =
      (findFrom? free text).map fun found => (byteLength (text.take found.1), found.2) := by
  induction text generalizing free with
  | nil => rfl
  | cons c rest ih =>
    cases hc : isNonAscii c with
    | false =>
      -- The character is its byte, and a link starts at both or at neither.
      have hwidth := width?_bytewise (c :: rest)
      rw [bytewise_cons_of_ascii hc] at hwidth ⊢
      rw [findFrom?, findFrom?, hwidth, ih]
      split
      · rfl
      · simp [Function.comp_def, utf8Size_of_ascii hc, Nat.add_comm]
    | true =>
      -- No byte of the character starts a link, and a link may follow the last of them.
      obtain ⟨d, more, hd, hna, hmore, hlen⟩ := bytewise_cons_of_nonAscii hc rest
      have hskip : ∀ e ∈ d :: more, isNonAscii e = true := by
        intro e he
        rcases List.mem_cons.1 he with rfl | he
        · exact hna
        · exact hmore e he
      have hnone : (if free then width? (c :: rest) else none) = none := by
        rw [width?_of_nonAscii hc]
        exact ite_self _
      rw [hd, ← List.cons_append, findFrom?_append hskip (by simp), ih, findFrom?, hnone,
        asciiOnly_isAlphanum c hc]
      simp [Function.comp_def, hlen, Nat.add_comm]

/-- The first link of a text stands in its bytes after those before it, and is as wide. -/
theorem find?_bytewise (text : Text) :
    find? (bytewise text) =
      (find? text).map fun found => (byteLength (text.take found.1), found.2) :=
  findFrom?_bytewise true text

/-- A link that is found is of ASCII characters. -/
theorem allAscii_findFrom? {free : Bool} {text : Text} {start width : Nat}
    (h : findFrom? free text = some (start, width)) : AllAscii ((text.drop start).take width) := by
  induction text generalizing free start with
  | nil => cases h
  | cons c rest ih =>
    unfold findFrom? at h
    split at h
    next hw =>
      cases h
      split at hw
      · exact allAscii_width? hw
      · cases hw
    next =>
      obtain ⟨found, hf, he⟩ := Option.map_eq_some_iff.1 h
      obtain ⟨rfl, rfl⟩ := Prod.mk.inj he
      exact ih hf

end Link

end LineLexer
