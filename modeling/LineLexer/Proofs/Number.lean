import LineLexer.Proofs.Number.Decimal
import LineLexer.Proofs.Scan.Cut

/-!
# Numbers of scripts

A number of a script is read greedily, part by part, and each part is taken if it is there. Its kind
and its extent can be said without that: there is a grammar for each kind of number (`hexInt`,
`decimalInt`, `float`), the stem of a number is the longest text in one of them that the line starts
with, or the bare mark of a hexadecimal number, and the token is the stem with the word characters
glued to it (`number_longest`).

Three facts on what is read carry this. The stem is in the grammar of its kind (`exists_stem`); a
text of a grammar, read on its own, is read in full and as that kind (`numeral_of_mem`); and reading
on in more text takes no less (`length_le_numeral`).
-/

namespace LineLexer.Script

open Grammar

/-! ## Hexadecimal numbers -/

/-- A hexadecimal integer is its mark, digits and a suffix. -/
theorem mem_hexInt_iff {text : Text} : text ∈ hexInt ↔ ∃ x digits suffix,
    text = '0' :: x :: (digits ++ suffix) ∧ x ∈ ['x', 'X'] ∧ digits ∈ many1 isHexDigit ∧
      suffix ∈ opt longSuffix := by
  constructor
  · rintro ⟨_, ⟨c, hc, rfl⟩, _, ⟨_, ⟨x, hx, rfl⟩, _, ⟨digits, hdigits, suffix, hsuffix, rfl⟩, rfl⟩,
      rfl⟩
    obtain rfl := List.mem_singleton.1 hc
    exact ⟨x, digits, suffix, rfl, hx, hdigits, hsuffix⟩
  · rintro ⟨x, digits, suffix, rfl, hx, hdigits, hsuffix⟩
    exact ⟨['0'], ⟨'0', by simp, rfl⟩, _,
      ⟨[x], ⟨x, hx, rfl⟩, _, ⟨digits, hdigits, suffix, hsuffix, rfl⟩, rfl⟩, rfl⟩

/-- Digits and a suffix behind the mark are read, with the suffix at the end of the text. -/
theorem hexadecimal_of_mem {digits suffix : Text} (hdigits : digits ∈ many1 isHexDigit)
    (hsuffix : suffix ∈ opt longSuffix) :
    hexadecimal (digits ++ suffix) = (.literalHexInt, 2 + digits.length + suffix.length) := by
  have hlength : digits.length ≠ 0 := fun h => hdigits.1 (List.length_eq_zero_iff.1 h)
  have hrun : runLength isHexDigit (digits ++ suffix) = digits.length := by
    refine runLength_append_of_head? hdigits.2 fun c hc => ?_
    rcases hsuffix with rfl | ⟨d, hd, rfl⟩
    · cases hc
    · obtain rfl := Option.some.inj hc
      revert hd d
      simp [isHexDigit]
  rw [hexadecimal]
  simp only [hrun, List.drop_left, if_neg hlength]
  rcases hsuffix with rfl | ⟨c, hc, rfl⟩
  · rfl
  · have hmark : c = 'l' ∨ c = 'L' := by simpa using hc
    simp [hmark]

/-- A text that starts with one of two characters is one of them and what is behind. -/
theorem exists_cons_of_head?_eq {a b : Char} {text : Text}
    (h : text.head? = some a ∨ text.head? = some b) : ∃ c tail, text = c :: tail ∧ c ∈ [a, b] := by
  rcases h with h | h
  · obtain ⟨tail, rfl⟩ := List.head?_eq_some_iff.1 h
    exact ⟨a, tail, rfl, by simp⟩
  · obtain ⟨tail, rfl⟩ := List.head?_eq_some_iff.1 h
    exact ⟨b, tail, rfl, by simp⟩

/-- What is behind the mark falls into digits, a suffix and what is left. -/
theorem exists_hexadecimal (rest : Text) : ∃ digits suffix left,
    rest = digits ++ (suffix ++ left) ∧ digits ∈ many isHexDigit ∧ suffix ∈ opt longSuffix ∧
      hexadecimal rest = if digits = [] then (.errorNumber, 2)
        else (.literalHexInt, 2 + digits.length + suffix.length) := by
  obtain ⟨digits, left, rfl, hdigits, -, hrun⟩ := exists_run isHexDigit rest
  have hread : hexadecimal (digits ++ left) = if digits = [] then (.errorNumber, 2)
      else (.literalHexInt,
        2 + digits.length + if left.head? = some 'l' ∨ left.head? = some 'L' then 1 else 0) := by
    simp only [hexadecimal, hrun, List.drop_left, List.length_eq_zero_iff]
  by_cases hmark : left.head? = some 'l' ∨ left.head? = some 'L'
  · obtain ⟨c, left, rfl, hc⟩ := exists_cons_of_head?_eq hmark
    refine ⟨digits, [c], left, rfl, hdigits, .inr ⟨c, hc, rfl⟩, ?_⟩
    rw [hread, if_pos hmark]
    rfl
  · refine ⟨digits, [], left, rfl, hdigits, .inl rfl, ?_⟩
    rw [hread, if_neg hmark]
    rfl

/-- The mark is always read. -/
theorem two_le_hexadecimal (rest : Text) : 2 ≤ (hexadecimal rest).2 := by
  obtain ⟨digits, suffix, left, -, -, -, hread⟩ := exists_hexadecimal rest
  rw [hread]
  split <;> simp only <;> omega

/-- Digits and a suffix behind the mark are read that far with more text behind them. -/
theorem length_le_hexadecimal {digits suffix : Text} (hdigits : digits ∈ many1 isHexDigit)
    (hsuffix : suffix ∈ opt longSuffix) (more : Text) :
    2 + digits.length + suffix.length ≤ (hexadecimal (digits ++ suffix ++ more)).2 := by
  have hlength : digits.length ≠ 0 := fun h => hdigits.1 (List.length_eq_zero_iff.1 h)
  rcases hsuffix with rfl | ⟨c, hc, rfl⟩
  · have hrun : digits.length ≤ runLength isHexDigit (digits ++ more) := by
      rw [runLength, List.takeWhile_append_of_pos hdigits.2, List.length_append]
      exact Nat.le_add_right ..
    rw [List.append_nil, hexadecimal]
    simp only [List.length_nil]
    rw [if_neg (by omega)]
    simp only
    omega
  · have hmark : c = 'l' ∨ c = 'L' := by simpa using hc
    have hrun : runLength isHexDigit (digits ++ ([c] ++ more)) = digits.length := by
      refine runLength_append_of_head? hdigits.2 fun d hd => ?_
      obtain rfl := Option.some.inj hd
      rcases hmark with rfl | rfl <;> decide
    rw [List.append_assoc, hexadecimal]
    simp only [hrun, List.drop_left, if_neg hlength]
    simp [hmark]

/-! ## Numbers -/

/-- What the stem of a number can be: a number of any kind, or the bare mark of a hexadecimal
one. -/
def stems : Grammar := hexInt ∪ decimalInt ∪ float ∪ bareMark

section

variable {c x : Char} {rest : Text}

/-- Behind its mark a number is hexadecimal. -/
theorem numeral_of_mark (hx : x ∈ ['x', 'X']) (rest : Text) :
    numeral '0' (x :: rest) = hexadecimal rest := by
  have hmark : x = 'x' ∨ x = 'X' := by simpa using hx
  simp [numeral, hmark]

/-- A number is hexadecimal behind its mark or decimal. -/
theorem numeral_cases (c : Char) (rest : Text) :
    (∃ x ∈ ['x', 'X'], ∃ tail, c = '0' ∧ rest = x :: tail ∧ numeral c rest = hexadecimal tail) ∨
      numeral c rest = decimal (c :: rest) := by
  by_cases hmark : c = '0' ∧ (rest.head? = some 'x' ∨ rest.head? = some 'X')
  · obtain ⟨rfl, hhead⟩ := hmark
    obtain ⟨x, tail, rfl, hx⟩ := exists_cons_of_head?_eq hhead
    exact .inl ⟨x, hx, tail, rfl, rfl, numeral_of_mark hx tail⟩
  · exact .inr (if_neg hmark)

/-- As a decimal number only the zero of a mark is read. -/
theorem decimal_of_mark (hx : x ∈ ['x', 'X']) (rest : Text) :
    (decimal ('0' :: x :: rest)).2 = 1 := by
  have hmark : x = 'x' ∨ x = 'X' := by simpa using hx
  rcases hmark with rfl | rfl <;> rfl

/-- The stem of a number is in the grammar of its kind, or it is a bare mark in error. -/
theorem exists_stem (h : (c.isDigit || (c == '.' && rest.head?.any Char.isDigit)) = true) :
    ∃ stem left, c :: rest = stem ++ left ∧ stem.length = (numeral c rest).2 ∧
      (stem ∈ grammarOf (numeral c rest).1 ∨
        (numeral c rest).1 = .errorNumber ∧ stem ∈ bareMark) := by
  rcases numeral_cases c rest with ⟨x, hx, tail, rfl, rfl, hread⟩ | hread
  · obtain ⟨digits, suffix, left, rfl, hdigits, hsuffix, hhex⟩ := exists_hexadecimal tail
    rw [hread, hhex]
    by_cases hne : digits = []
    · rw [if_pos hne]
      exact ⟨['0', x], _, rfl, rfl, .inr ⟨rfl, ['0'], ⟨'0', by simp, rfl⟩, [x], ⟨x, hx, rfl⟩, rfl⟩⟩
    · rw [if_neg hne]
      refine ⟨'0' :: x :: (digits ++ suffix), left, by simp, ?_, .inl ?_⟩
      · simp only [List.length_cons, List.length_append]
        omega
      · exact mem_hexInt_iff.2 ⟨x, digits, suffix, rfl, hx, ⟨hne, hdigits⟩, hsuffix⟩
  · obtain ⟨parts, left, htext, hparts, hdecimal⟩ := Parts.exists_isDecimal h
    rw [hread, hdecimal]
    refine ⟨parts.text, left, htext, rfl, .inl ?_⟩
    cases hfloat : parts.isFloat || parts.suffix.any (['f', 'F', 'd', 'D'].contains ·) with
    | true =>
      have hkind : Parts.kindOf parts.isFloat parts.suffix = .literalFloat := if_pos hfloat
      rw [hkind]
      exact Parts.mem_float_iff.2 ⟨parts, rfl, hparts, hkind⟩
    | false =>
      have hkind : Parts.kindOf parts.isFloat parts.suffix = .literalDecimalInt :=
        if_neg (by rw [hfloat]; decide)
      rw [hkind]
      exact Parts.mem_decimalInt_iff.2 ⟨parts, rfl, hparts, hkind⟩

/-- A number of a kind is a hexadecimal one or read in full as a decimal one of that kind. -/
theorem grammarOf_cases {kind : Kind} {text : Text} (h : text ∈ grammarOf kind) :
    (kind = .literalHexInt ∧ text ∈ hexInt) ∨
      (text ≠ [] ∧ decimal text = (kind, text.length)) := by
  have hparts : ∀ parts : Parts, parts.IsDecimal → parts.text ≠ [] ∧
      decimal parts.text = (Parts.kindOf parts.isFloat parts.suffix, parts.text.length) := by
    refine fun parts hparts => ⟨fun hnil => ?_, hparts.decimal_text⟩
    obtain ⟨hwhole, hrest⟩ := List.append_eq_nil_iff.1 hnil
    obtain ⟨hfraction, -⟩ := List.append_eq_nil_iff.1 hrest
    exact (hparts.whole_mem hfraction).1 hwhole
  unfold grammarOf at h
  split at h
  · exact .inl ⟨rfl, h⟩
  · obtain ⟨parts, rfl, hdecimal, hkind⟩ := Parts.mem_decimalInt_iff.1 h
    exact .inr (hkind ▸ hparts parts hdecimal)
  · obtain ⟨parts, rfl, hdecimal, hkind⟩ := Parts.mem_float_iff.1 h
    exact .inr (hkind ▸ hparts parts hdecimal)
  · cases h

/-- A number of a kind is read in full on its own, as one of the kind. -/
theorem numeral_of_mem {kind : Kind} {text : Text} (h : text ∈ grammarOf kind) :
    ∃ c rest, text = c :: rest ∧ numeral c rest = (kind, text.length) := by
  rcases grammarOf_cases h with ⟨rfl, hhex⟩ | ⟨hne, hdecimal⟩
  · obtain ⟨x, digits, suffix, rfl, hx, hdigits, hsuffix⟩ := mem_hexInt_iff.1 hhex
    refine ⟨'0', _, rfl, ?_⟩
    rw [numeral_of_mark hx, hexadecimal_of_mem hdigits hsuffix]
    simp only [List.length_cons, List.length_append, Prod.mk.injEq, true_and]
    omega
  · obtain ⟨c, rest, rfl⟩ := List.exists_cons_of_ne_nil hne
    refine ⟨c, rest, rfl, ?_⟩
    rcases numeral_cases c rest with ⟨x, hx, tail, rfl, rfl, -⟩ | hread
    · have hone := decimal_of_mark hx tail
      rw [hdecimal, List.length_cons, List.length_cons] at hone
      omega
    · rw [hread, hdecimal]

/-- A bare mark is read on its own as an error. -/
theorem numeral_of_bareMark {text : Text} (h : text ∈ bareMark) :
    ∃ c rest, text = c :: rest ∧ numeral c rest = (.errorNumber, 2) := by
  obtain ⟨_, ⟨c, hc, rfl⟩, _, ⟨x, hx, rfl⟩, rfl⟩ := h
  obtain rfl := List.mem_singleton.1 hc
  exact ⟨'0', [x], rfl, numeral_of_mark hx []⟩

/-- A text that is read in full as a decimal number is no longer than the number at its place. -/
theorem length_le_numeral_of_decimal {text more : Text} (h : (decimal text).2 = text.length)
    (htext : c :: rest = text ++ more) : text.length ≤ (numeral c rest).2 := by
  rcases numeral_cases c rest with ⟨x, hx, tail, rfl, rfl, hread⟩ | hread
  · -- Of a mark only the zero is read as a decimal number.
    have hone : text.length ≤ 1 := by
      refine Nat.not_lt.1 fun hlong => ?_
      match text, hlong with
      | a :: b :: text, _ =>
        simp only [List.cons_append, List.cons.injEq] at htext
        obtain ⟨rfl, rfl, -⟩ := htext
        rw [decimal_of_mark hx, List.length_cons, List.length_cons] at h
        omega
    have htwo := two_le_hexadecimal tail
    rw [hread]
    omega
  · rw [hread, htext]
    exact length_le_decimal h more

/-- The stem of a number is no shorter than any other text that a stem can be. -/
theorem length_le_numeral {stem more : Text} (h : stem ∈ stems) (htext : c :: rest = stem ++ more) :
    stem.length ≤ (numeral c rest).2 := by
  have hdecimal : ∀ kind, stem ∈ grammarOf kind → kind ≠ .literalHexInt →
      stem.length ≤ (numeral c rest).2 := by
    intro kind hmem hkind
    rcases grammarOf_cases hmem with ⟨hhex, -⟩ | ⟨-, hread⟩
    · exact absurd hhex hkind
    · exact length_le_numeral_of_decimal (congrArg Prod.snd hread) htext
  rcases h with ((hmem | hmem) | hmem) | hmem
  · obtain ⟨x, digits, suffix, rfl, hx, hdigits, hsuffix⟩ := mem_hexInt_iff.1 hmem
    rw [List.cons_append, List.cons_append] at htext
    obtain ⟨rfl, rfl⟩ := List.cons.inj htext
    have hle := length_le_hexadecimal hdigits hsuffix more
    rw [numeral_of_mark hx]
    simp only [List.length_cons, List.length_append]
    omega
  · exact hdecimal .literalDecimalInt hmem (by decide)
  · exact hdecimal .literalFloat hmem (by decide)
  · obtain ⟨_, ⟨d, hd, rfl⟩, _, ⟨x, hx, rfl⟩, rfl⟩ := hmem
    obtain rfl := List.mem_singleton.1 hd
    simp only [List.cons_append, List.nil_append] at htext
    obtain ⟨rfl, rfl⟩ := List.cons.inj htext
    rw [numeral_of_mark hx]
    exact two_le_hexadecimal _

/-! ## Tokens of numbers -/

/-- In code, a number is read at a digit and at a point with a digit behind it. -/
theorem code_eq_number (h : (c.isDigit || (c == '.' && rest.head?.any Char.isDigit)) = true)
    (regexAllowed : Bool) : code regexAllowed c rest = number c rest := by
  have hother : ∀ d ∈ [' ', '\t', '\x0c', '\r', '\n', '<', '/', '`', '"', '\''], c ≠ d := by
    rintro d hd rfl
    have hnone : ∀ d ∈ [' ', '\t', '\x0c', '\r', '\n', '<', '/', '`', '"', '\''],
        d.isDigit = false ∧ (d == '.') = false := by simp
    simp [hnone c hd] at h
  simp only [List.mem_cons, List.not_mem_nil, or_false, forall_eq_or_imp, forall_eq] at hother
  simp [code, isBlank, Quote.ofChar?, hother, plainCode, h]

/-- A token of a number at the head of a text: it is cut off by the code of a script, no character
that goes on with a word stands behind it, its kind says in which grammar it is, and it is the
longest stem with the word characters that are glued to it. -/
structure IsNumberToken (scope : LinkScope) (text : Text) (kind : Kind) (taken left : Text) :
    Prop where
  text_eq : text = taken ++ left
  cutsOff : CutsOff scope (.script .code) text [⟨kind, .script, taken, .empty⟩] (.script .code)
  boundary : ∀ d ∈ left.head?, isWordChar d = false
  hexInt_iff : kind = .literalHexInt ↔ taken ∈ hexInt
  decimalInt_iff : kind = .literalDecimalInt ↔ taken ∈ decimalInt
  float_iff : kind = .literalFloat ↔ taken ∈ float
  error_iff : kind = .errorNumber ↔ taken ∉ hexInt ∪ decimalInt ∪ float
  stem : ∃ stem glued, taken = stem ++ glued ∧ (∀ d ∈ glued, isWordChar d = true) ∧
    stem ∈ stems ∧ ∀ other ∈ stems, other <+: text → other.length ≤ stem.length

/-- Only numbers have a grammar, and a number of any kind can be a stem. -/
theorem grammarOf_subset (kind : Kind) : grammarOf kind ⊆ hexInt ∪ decimalInt ∪ float := by
  unfold grammarOf
  split
  · exact fun _ h => .inl (.inl h)
  · exact fun _ h => .inl (.inr h)
  · exact fun _ h => .inr h
  · exact Set.empty_subset _

/-- Numbers are not searched for links. -/
theorem appliesTo_of_grammarOf {kind : Kind} {text : Text} (h : text ∈ grammarOf kind)
    (scope : LinkScope) : scope.appliesTo kind = false := by
  unfold grammarOf at h
  split at h
  · cases scope <;> rfl
  · cases scope <;> rfl
  · cases scope <;> rfl
  · cases h

/-- A text is in one grammar only, and a bare mark is in none. -/
theorem eq_of_grammarOf {kind other : Kind} {text : Text}
    (h : text ∈ grammarOf kind ∨ kind = .errorNumber ∧ text ∈ bareMark)
    (hother : text ∈ grammarOf other) : kind = other := by
  obtain ⟨c, rest, rfl, hread⟩ := numeral_of_mem hother
  rcases h with h | ⟨rfl, h⟩
  · obtain ⟨_, _, hcons, hsame⟩ := numeral_of_mem h
    obtain ⟨rfl, rfl⟩ := List.cons.inj hcons
    exact congrArg Prod.fst (hsame.symm.trans hread)
  · obtain ⟨_, _, hcons, hsame⟩ := numeral_of_bareMark h
    obtain ⟨rfl, rfl⟩ := List.cons.inj hcons
    exact congrArg Prod.fst (hsame.symm.trans hread)

/-- The kind of a number, given the kind of its stem and what is glued to it. -/
def gluedKind (kind : Kind) (glued : Text) : Kind :=
  if glued.length = 0 then kind else .errorNumber

/-- A number is in the grammar of its kind: with word characters glued to it, it is in none, being
longer than any stem. -/
theorem gluedKind_eq_iff {stem glued left : Text} {kind other : Kind}
    (htext : c :: rest = stem ++ (glued ++ left))
    (hlongest : ∀ other ∈ stems, other <+: c :: rest → other.length ≤ stem.length)
    (hstem : stem ∈ grammarOf kind ∨ kind = .errorNumber ∧ stem ∈ bareMark)
    (hother : other ≠ .errorNumber) :
    gluedKind kind glued = other ↔ stem ++ glued ∈ grammarOf other := by
  by_cases hnil : glued = []
  · rw [hnil, List.append_nil, gluedKind, if_pos List.length_nil]
    refine ⟨?_, eq_of_grammarOf hstem⟩
    rintro rfl
    exact hstem.resolve_right fun herror => hother herror.1
  · have hpos : glued.length ≠ 0 := fun h => hnil (List.length_eq_zero_iff.1 h)
    rw [gluedKind, if_neg hpos]
    refine ⟨fun h => absurd h.symm hother, fun hnumber => ?_⟩
    have hstarts : stem ++ glued <+: c :: rest := ⟨left, by rw [htext, List.append_assoc]⟩
    have hle := hlongest _ (.inl (grammarOf_subset _ hnumber)) hstarts
    rw [List.length_append] at hle
    omega

/-- The code of a script cuts off the stem of a number with what is glued to it. -/
theorem cutsOff_number (scope : LinkScope)
    (h : (c.isDigit || (c == '.' && rest.head?.any Char.isDigit)) = true)
    {stem glued left : Text} (htext : c :: rest = stem ++ (glued ++ left))
    (hlength : stem.length = (numeral c rest).2)
    (hglued : runLength isWordChar (glued ++ left) = glued.length)
    (hscope : scope.appliesTo (gluedKind (numeral c rest).1 glued) = false) :
    CutsOff scope (.script .code) (c :: rest)
      [⟨gluedKind (numeral c rest).1 glued, .script, stem ++ glued, .empty⟩] (.script .code) := by
  have hdrop : (c :: rest).drop stem.length = glued ++ left := by
    rw [htext, List.drop_left]
  have hnumber : number c rest =
      one (gluedKind (numeral c rest).1 glued) (stem.length + glued.length) .code := by
    simp only [number, ← hlength, hdrop, hglued, gluedKind]
  have hstep : ∀ past, step past (.script .code) c rest = _ :=
    fun _ => (code_eq_number h _).trans hnumber
  have hpos := number_width_pos h
  rw [hnumber, width_one] at hpos
  have hcut := cutsOff_of_step_singleton scope hstep hpos hscope
  have htake : (c :: rest).take (stem.length + glued.length) = stem ++ glued := by
    rw [htext, ← List.append_assoc, ← List.length_append, List.take_left]
  rwa [htake] at hcut

/-- Where the code of a script comes to a digit, or to a point with a digit behind it, it cuts off
one number: the longest text of a grammar of numbers, or a bare mark, with the word characters
glued to it. -/
theorem number_longest (scope : LinkScope) (c : Char) (rest : Text)
    (h : (c.isDigit || (c == '.' && rest.head?.any Char.isDigit)) = true) :
    ∃ kind taken left, IsNumberToken scope (c :: rest) kind taken left := by
  obtain ⟨stem, behind, htext, hlength, hstem⟩ := exists_stem h
  obtain ⟨glued, left, rfl, hglued, hleft, hrun⟩ := exists_run isWordChar behind
  have hmem : stem ∈ stems := by
    rcases hstem with hnumber | ⟨-, hbare⟩
    · exact .inl (grammarOf_subset _ hnumber)
    · exact .inr hbare
  have hlongest : ∀ other ∈ stems, other <+: c :: rest → other.length ≤ stem.length := by
    rintro other hother ⟨more, hmore⟩
    rw [hlength]
    exact length_le_numeral hother hmore.symm
  have hiff : ∀ other, other ≠ .errorNumber →
      (gluedKind (numeral c rest).1 glued = other ↔ stem ++ glued ∈ grammarOf other) :=
    fun other => gluedKind_eq_iff htext hlongest hstem
  have hscope : scope.appliesTo (gluedKind (numeral c rest).1 glued) = false := by
    by_cases herror : gluedKind (numeral c rest).1 glued = .errorNumber
    · rw [herror]
      cases scope <;> rfl
    · exact appliesTo_of_grammarOf ((hiff _ herror).1 rfl) scope
  refine ⟨gluedKind (numeral c rest).1 glued, stem ++ glued, left, ?_, ?_, hleft,
    hiff _ (by decide), hiff _ (by decide), hiff _ (by decide), ⟨?_, ?_⟩,
    stem, glued, rfl, hglued, hmem, hlongest⟩
  · rw [htext, List.append_assoc]
  · exact cutsOff_number scope h htext hlength hrun hscope
  · rintro herror ((hhex | hdecimal) | hfloat)
    · exact absurd (herror.symm.trans ((hiff .literalHexInt (by decide)).2 hhex)) (by decide)
    · exact absurd (herror.symm.trans ((hiff .literalDecimalInt (by decide)).2 hdecimal))
        (by decide)
    · exact absurd (herror.symm.trans ((hiff .literalFloat (by decide)).2 hfloat)) (by decide)
  · intro hnone
    by_contra herror
    exact hnone (grammarOf_subset _ ((hiff _ herror).1 rfl))

/-- A number with an exponent that lacks its digits, so that its mark is glued to it. -/
theorem number_longest_of_glued :
    ('1'.isDigit || ('1' == '.' && ".5em+2".toList.head?.any Char.isDigit)) = true ∧
      ∃ kind taken left, IsNumberToken .comments "1.5em+2".toList kind taken left :=
  ⟨by decide, number_longest .comments '1' ".5em+2".toList (by decide)⟩

end

end LineLexer.Script
