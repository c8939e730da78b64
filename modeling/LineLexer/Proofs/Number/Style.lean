import LineLexer.Proofs.Grammar.Style
import LineLexer.Proofs.Number.Grammar
import LineLexer.Proofs.Token.Next
import LineLexer.Proofs.Vocabulary.Dictionary

/-!
# Numbers of style sheets

Right of a colon and in the prelude of an at-rule, the next token is a number just if the text
starts with a numeral, and then it is the longest one with its unit (`number_exact`). What is
measured is the longest numeral (`numberWidth?_eq_some_iff`), its first character starts nothing
else there (`contextMove_number`), and a piece of the kind of numbers is taken nowhere else but at a
hash sign with a hexadecimal digit behind it (`HoldsNumber.of_contextMove`).
-/

namespace LineLexer.Style

open Grammar

/-! ## Numerals -/

/-- Numerals: `[+-]?(D+(.D*)?|.D+)`. -/
def numeral : Grammar :=
  seq (opt Script.sign)
    (seq (many1 Char.isDigit) (opt Script.fraction) ∪ seq (oneOf ['.']) (many1 Char.isDigit))

/-- A numeral is a sign, digits and a fraction, of which any may be missing, but for a digit. -/
theorem mem_numeral_iff {text : Text} : text ∈ numeral ↔ ∃ mark digits fraction,
    text = mark ++ (digits ++ fraction) ∧ mark ∈ opt Script.sign ∧ digits ∈ many Char.isDigit ∧
      fraction ∈ opt Script.fraction ∧ (digits ≠ [] ∨ 1 < fraction.length) := by
  constructor
  · rintro ⟨mark, hmark, _, ⟨digits, hdigits, fraction, hfraction, rfl⟩ |
      ⟨_, ⟨c, hc, rfl⟩, digits, hdigits, rfl⟩, rfl⟩
    · exact ⟨mark, digits, fraction, rfl, hmark, hdigits.2, hfraction, .inl hdigits.1⟩
    · refine ⟨mark, [], [c] ++ digits, rfl, hmark, by simp [many], ?_, .inr ?_⟩
      · exact .inr ⟨[c], ⟨c, hc, rfl⟩, digits, hdigits.2, rfl⟩
      · have := List.length_pos_iff.2 hdigits.1
        simpa using this
  · rintro ⟨mark, digits, fraction, rfl, hmark, hdigits, hfraction, hdigit⟩
    refine ⟨mark, hmark, _, ?_, rfl⟩
    by_cases hne : digits = []
    · -- The digit stands behind the point.
      have hlong := hdigit.resolve_left (not_not_intro hne)
      rcases hfraction with rfl | ⟨point, hpoint, behind, hbehind, rfl⟩
      · exact absurd hlong (by simp)
      · refine .inr ⟨point, hpoint, behind, ⟨?_, hbehind⟩, by rw [hne]; rfl⟩
        rintro rfl
        obtain ⟨c, -, rfl⟩ := hpoint
        simp at hlong
    · exact .inl ⟨digits, ⟨hne, hdigits⟩, fraction, hfraction, rfl⟩

/-- A numeral starts with a digit, a sign or a point. -/
theorem exists_cons_of_mem_numeral {text : Text} (h : text ∈ numeral) :
    ∃ c rest, text = c :: rest ∧ (c.isDigit = true ∨ c ∈ ['+', '-', '.']) := by
  obtain ⟨mark, digits, fraction, rfl, hmark, hdigits, hfraction, hdigit⟩ := mem_numeral_iff.1 h
  rcases hmark with rfl | ⟨c, hc, rfl⟩
  · cases digits with
    | cons c digits => exact ⟨c, _, rfl, .inl (hdigits c List.mem_cons_self)⟩
    | nil =>
      rcases hfraction with rfl | ⟨_, ⟨c, hc, rfl⟩, behind, -, rfl⟩
      · simp at hdigit
      · exact ⟨c, _, rfl, .inr (List.mem_append_right ['+', '-'] hc)⟩
  · exact ⟨c, _, rfl, .inr (List.mem_append_left ['.'] hc)⟩

/-- What is measured as a number is a numeral. -/
theorem exists_numeral {text : Text} {width : Nat} (h : numberWidth? text = some width) :
    ∃ taken rest, text = taken ++ rest ∧ taken ∈ numeral ∧ taken.length = width := by
  obtain ⟨mark, rest, rfl, hmark, hmarkWidth⟩ := Script.exists_sign text
  obtain ⟨digits, rest, rfl, hdigits, -, hrun⟩ := Script.exists_run Char.isDigit rest
  obtain ⟨fraction, rest, rfl, hfraction, hfractionWidth⟩ := Script.exists_fraction rest
  simp only [numberWidth?, hmarkWidth, ← List.drop_drop, List.drop_left, digitsWidth, hrun,
    hfractionWidth] at h
  split at h
  · cases h
  next hdigit =>
    refine ⟨mark ++ (digits ++ fraction), rest, by simp, ?_, ?_⟩
    · refine mem_numeral_iff.2 ⟨mark, digits, fraction, rfl, hmark, hdigits, hfraction, ?_⟩
      by_contra hnone
      rw [not_or, not_not, Nat.not_lt] at hnone
      exact hdigit ⟨by rw [hnone.1]; rfl, hnone.2⟩
    · rw [← Option.some.inj h]
      simp [Nat.add_assoc]

/-- Digits with a fraction are read as a whole, whatever follows. -/
theorem length_le_digits_fraction {digits fraction : Text} (hdigits : digits ∈ many Char.isDigit)
    (hfraction : fraction ∈ opt Script.fraction) (rest : Text) :
    let text := digits ++ (fraction ++ rest)
    digits.length + fraction.length ≤
      digitsWidth text + fractionWidth (text.drop (digitsWidth text)) := by
  intro text
  rcases hfraction with rfl | ⟨_, ⟨c, hc, rfl⟩, behind, hbehind, rfl⟩
  · have hle : digits.length ≤ digitsWidth text := Script.length_le_runLength hdigits _
    rw [List.length_nil]
    omega
  · -- The point ends the digits.
    obtain rfl := List.mem_singleton.1 hc
    have hwhole : digitsWidth text = digits.length :=
      Script.runLength_append_of_head? hdigits (by simp)
    have hpart : fractionWidth (['.'] ++ behind ++ rest) = 1 + digitsWidth (behind ++ rest) := rfl
    have hle : behind.length ≤ digitsWidth (behind ++ rest) :=
      Script.length_le_runLength hbehind rest
    rw [hwhole, List.drop_left, hpart, List.length_append, List.length_singleton]
    omega

/-- A numeral that a text starts with is measured, and no less than it. -/
theorem exists_numberWidth {taken : Text} (h : taken ∈ numeral) (rest : Text) :
    ∃ width, numberWidth? (taken ++ rest) = some width ∧ taken.length ≤ width := by
  obtain ⟨mark, digits, fraction, rfl, hmark, hdigits, hfraction, hdigit⟩ := mem_numeral_iff.1 h
  have hsign : signWidth (mark ++ (digits ++ (fraction ++ rest))) = mark.length := by
    refine Script.signWidth_append_of_head? hmark fun c hc hplus => ?_
    -- A digit or a point stands behind the sign.
    have hneither : c.isDigit = false ∧ c ≠ '.' := by
      simp only [List.mem_cons, List.not_mem_nil, or_false] at hplus
      rcases hplus with rfl | rfl <;> decide
    cases digits with
    | cons d digits =>
      obtain rfl : d = c := Option.some.inj hc
      rw [hdigits d List.mem_cons_self] at hneither
      cases hneither.1
    | nil =>
      rcases hfraction with rfl | ⟨_, ⟨d, hd, rfl⟩, behind, -, rfl⟩
      · simp at hdigit
      · obtain rfl : d = c := Option.some.inj hc
        exact hneither.2 (List.mem_singleton.1 hd)
  have htext : mark ++ (digits ++ fraction) ++ rest = mark ++ (digits ++ (fraction ++ rest)) := by
    simp
  have hdigitsLe : digits.length ≤ digitsWidth (digits ++ (fraction ++ rest)) :=
    Script.length_le_runLength hdigits _
  have hle := length_le_digits_fraction hdigits hfraction rest
  have hpos : digits = [] ∨ 0 < digits.length := by
    rw [List.length_pos_iff]
    exact eq_or_ne digits []
  simp only [htext, numberWidth?, hsign, ← List.drop_drop, List.drop_left] at hle ⊢
  refine ⟨_, if_neg ?_, ?_⟩
  · rintro ⟨hwhole, hpart⟩
    rw [hwhole] at hdigitsLe
    rcases hpos with rfl | hpos
    · have := hdigit.resolve_left (not_not_intro rfl)
      simp only [List.length_nil] at hle
      omega
    · omega
  · simp only [List.length_append]
    omega

/-- The number that a text starts with is the longest numeral it starts with. -/
theorem numberWidth?_eq_some_iff {text : Text} {width : Nat} : numberWidth? text = some width ↔
    ∃ taken, numeral.IsLongest text taken ∧ taken.length = width := by
  refine eq_some_iff_isLongest (fun width h => exists_numeral h) ?_ width
  rintro taken hmem ⟨rest, rfl⟩
  exact exists_numberWidth hmem rest

/-- Of the numerals that a text starts with, one is the longest. -/
theorem exists_isLongest_numeral {text : Text} (h : ∃ taken ∈ numeral, taken <+: text) :
    ∃ taken, numeral.IsLongest text taken := by
  obtain ⟨other, hmem, rest, rfl⟩ := h
  obtain ⟨width, hwidth, -⟩ := exists_numberWidth hmem rest
  obtain ⟨taken, htaken, -⟩ := numberWidth?_eq_some_iff.1 hwidth
  exact ⟨taken, htaken⟩

/-! ## Units -/

/-- The unit that starts a text: a percent sign, or all letters there if they are a unit in any
letter case. -/
def unitOf (text : Text) : Text :=
  if text.head? = some '%' then ['%']
  else
    let letters := text.takeWhile Char.isAlpha
    if foldCase letters ∈ unitNames.map String.toList then letters else []

/-- The unit of a text is measured. -/
theorem take_unitWidth (text : Text) : text.take (unitWidth text) = unitOf text := by
  unfold unitWidth unitOf
  split
  next h =>
    obtain ⟨rest, rfl⟩ := List.head?_eq_some_iff.1 h
    rfl
  next =>
    simp only [contains_units_iff]
    split
    · exact take_runLength ..
    · rfl

/-! ## Moves -/

/-- The code of a context reads a text for numbers: right of a colon, and in the prelude of an
at-rule, where a plus sign is an operator. -/
def ReadsNumbers (context : StyleContext) (text : Text) : Prop :=
  context = .propertyValue ∨ (∃ body, context = .atRule body) ∧ text.head? ≠ some '+'

section

variable {context : StyleContext} {c : Char} {rest : Text}

/-- A number is taken where numbers are read. -/
theorem contextMove_number (hreads : ReadsNumbers context (c :: rest)) {width : Nat}
    (h : numberWidth? (c :: rest) = some width) :
    contextMove context c rest = number width (c :: rest) context := by
  have hhead : c.isDigit = true ∨ c ∈ ['+', '-', '.'] := by
    obtain ⟨taken, htaken, -⟩ := numberWidth?_eq_some_iff.1 h
    obtain ⟨d, more, rfl, hd⟩ := exists_cons_of_mem_numeral htaken.mem
    obtain ⟨behind, hbehind⟩ := htaken.isPrefix
    rwa [(List.cons.inj hbehind).1] at hd
  have hother : ∀ d, ¬(d.isDigit = true ∨ d ∈ ['+', '-', '.']) → c ≠ d := by
    rintro d hd rfl
    exact hd hhead
  rcases hreads with rfl | ⟨⟨body, rfl⟩, hplus⟩
  · simp [contextMove, isBlank, Quote.ofChar?, propertyValue, hother, h]
  · have hplus : c ≠ '+' := fun hc => hplus (congrArg some hc)
    simp [contextMove, isBlank, Quote.ofChar?, atRulePrelude, isOperatorChar, hother, hplus, h]

/-- A hash sign with a hexadecimal digit behind it takes all of them, right of a colon. -/
theorem contextMove_hash (h : rest.head?.any isHexDigit = true) :
    contextMove .propertyValue '#' rest =
      code .literalDecimalInt (runLength isHexDigit rest + 1) .propertyValue := by
  simp [contextMove, isBlank, Quote.ofChar?, propertyValue, h]

/-- A move takes a piece of the kind of numbers. -/
def HoldsNumber (move : Move) : Prop :=
  ∃ piece ∈ move.pieces, piece.kind = .literalDecimalInt

/-- One piece is of its kind. -/
@[simp] theorem holdsNumber_code {kind : Kind} {width : Nat} {next : StyleContext} :
    HoldsNumber (code kind width next) ↔ kind = .literalDecimalInt := by
  simp [HoldsNumber, code, one, piece]

/-- A name or a call is no number. -/
@[simp] theorem not_holdsNumber_wordOrCall : ¬HoldsNumber (wordOrCall rest context) := by
  simp only [wordOrCall]
  split <;> simp

/-- In the prelude of an at-rule, what is taken as a number starts with one. -/
theorem HoldsNumber.of_atRulePrelude {body : AtRuleBody}
    (h : HoldsNumber (atRulePrelude body c rest)) :
    ∃ width, numberWidth? (c :: rest) = some width := by
  cases hwidth : numberWidth? (c :: rest) with
  | some width => exact ⟨width, rfl⟩
  | none =>
    revert h
    simp only [atRulePrelude, hwidth]
    repeat' split
    all_goals simp

/-- Right of a colon, what is taken as a number starts with one, or with a hash sign and a
hexadecimal digit behind it. -/
theorem HoldsNumber.of_propertyValue (h : HoldsNumber (propertyValue c rest)) :
    (∃ width, numberWidth? (c :: rest) = some width) ∨
      c = '#' ∧ rest.head?.any isHexDigit = true := by
  cases hwidth : numberWidth? (c :: rest) with
  | some width => exact .inl ⟨width, rfl⟩
  | none =>
    cases hhash : c = '#' && rest.head?.any isHexDigit with
    | true => exact .inr (by simpa using hhash)
    | false =>
      revert h
      simp only [propertyValue, hwidth, hhash, Bool.false_eq_true, if_false]
      repeat' split
      all_goals simp

/-- Where numbers are read, what is taken as a number starts with one, or it is right of a colon and
starts with a hash sign and a hexadecimal digit behind it. -/
theorem HoldsNumber.of_contextMove (hreads : ReadsNumbers context (c :: rest))
    (h : HoldsNumber (contextMove context c rest)) :
    (∃ width, numberWidth? (c :: rest) = some width) ∨
      context = .propertyValue ∧ c = '#' ∧ rest.head?.any isHexDigit = true := by
  revert h
  unfold contextMove
  split
  · simp
  split
  · rintro ⟨piece, hpiece, hkind⟩
    rw [kind_of_mem_comment hpiece] at hkind
    cases hkind
  split
  · simp [HoldsNumber, closeElement]
  split
  next quote _ =>
    rintro ⟨piece, hpiece, hkind⟩
    rw [kind_of_mem_literal hpiece] at hkind
    cases quote <;> cases hkind
  rcases hreads with rfl | ⟨⟨body, rfl⟩, -⟩
  · exact fun h => h.of_propertyValue.imp id fun hhash => ⟨rfl, hhash⟩
  · exact fun h => .inl h.of_atRulePrelude

end

/-! ## Tokens -/

/-- A token is a number, and no hash sign with digits behind it. -/
def IsNumber (token : Token) : Prop :=
  token.kind = .literalDecimalInt ∧ token.text.head? ≠ some '#'

section

variable {context : StyleContext} {text : Text}

/-- Where numbers are read, the longest numeral is cut off with its unit. -/
theorem cutsOff_number (scope : LinkScope) (hreads : ReadsNumbers context text)
    {taken left : Text} (htext : text = taken ++ left) (h : numeral.IsLongest text taken) :
    CutsOff scope (.style (.code context)) text
      [⟨.literalDecimalInt, .style, taken ++ unitOf left, .empty⟩] (.style (.code context)) := by
  obtain ⟨c, rest, hcons⟩ : ∃ c rest, text = c :: rest := by
    obtain ⟨c, more, rfl, -⟩ := exists_cons_of_mem_numeral h.mem
    exact ⟨c, _, htext⟩
  have hwidth := numberWidth?_eq_some_iff.2 ⟨taken, h, rfl⟩
  have hpos := numberWidth?_pos hwidth
  rw [hcons] at hreads hwidth
  have hstep : ∀ past, step past (.style (.code context)) c rest =
      number taken.length (c :: rest) context := fun past => contextMove_number hreads hwidth
  have hcut := cutsOff_of_step_singleton scope hstep (Nat.add_pos_left hpos _)
    (by cases scope <;> rfl)
  rw [← hcons, htext, List.drop_left, List.take_length_add_append, take_unitWidth] at hcut
  rwa [htext]

/-- Right of a colon, a hash sign is cut off with all hexadecimal digits behind it. -/
theorem cutsOff_hash (scope : LinkScope) {digits left : Text} (hdigits : digits ∈ many1 isHexDigit)
    (hleft : ∀ c ∈ left.head?, isHexDigit c = false) :
    CutsOff scope (.style (.code .propertyValue)) ('#' :: (digits ++ left))
      [⟨.literalDecimalInt, .style, '#' :: digits, .empty⟩] (.style (.code .propertyValue)) := by
  have hhead : (digits ++ left).head?.any isHexDigit = true := by
    obtain ⟨d, more, rfl⟩ := List.exists_cons_of_ne_nil hdigits.1
    exact hdigits.2 d List.mem_cons_self
  have hrun := Script.runLength_append_of_head? hdigits.2 hleft
  have hstep : ∀ past, step past (.style (.code .propertyValue)) '#' (digits ++ left) =
      code .literalDecimalInt (digits.length + 1) .propertyValue := by
    intro past
    rw [← hrun]
    exact contextMove_hash hhead
  have hcut := cutsOff_of_step_singleton scope hstep (Nat.succ_pos _) (by cases scope <;> rfl)
  rwa [List.take_succ_cons, List.take_left] at hcut

variable {start : ResumeState} {line : Text} {spans : List Span} {scope : LinkScope} {base : Nat}
  {token : Token}

/-- Where numbers are read and the text starts with a numeral, the next token is a number. -/
theorem exists_isNumber (hreach : Reaches .start start line spans (.style (.code context)) text)
    (hreads : ReadsNumbers context text) (h : ∃ taken ∈ numeral, taken <+: text) (scope : LinkScope)
    (base : Nat) : ∃ token, IsNext scope line base start spans token ∧ IsNumber token := by
  obtain ⟨taken, htaken⟩ := exists_isLongest_numeral h
  obtain ⟨left, htext⟩ := htaken.isPrefix
  refine ⟨_, (cutsOff_number scope hreads htext.symm htaken).isNext hreach base, rfl, ?_⟩
  obtain ⟨c, more, rfl, hc⟩ := exists_cons_of_mem_numeral htaken.mem
  intro hhash
  obtain rfl := Option.some.inj hhash
  revert hc
  decide

/-- Where numbers are read, a next token of their kind is a number, or it is a hash sign right of a
colon with hexadecimal digits behind it. -/
theorem numeral_or_hash_of_isNext
    (hreach : Reaches .start start line spans (.style (.code context)) text)
    (hreads : ReadsNumbers context text) (hnext : IsNext scope line base start spans token)
    (hkind : token.kind = .literalDecimalInt) :
    (∃ taken ∈ numeral, taken <+: text) ∨ context = .propertyValue ∧ ∃ digits left,
      text = '#' :: (digits ++ left) ∧ digits ∈ many1 isHexDigit ∧
        ∀ c ∈ left.head?, isHexDigit c = false := by
  obtain ⟨c, rest, rfl⟩ := List.exists_cons_of_ne_nil (hreach.ne_nil_of_isNext hnext)
  obtain ⟨piece, hpiece, hpieceKind⟩ :=
    hreach.exists_piece_of_isNext (contextMove_width_pos context c rest) hnext
  have hholds : HoldsNumber (contextMove context c rest) :=
    ⟨piece, hpiece, hpieceKind.symm.trans hkind⟩
  rcases hholds.of_contextMove hreads with ⟨width, hwidth⟩ | ⟨hcontext, rfl, hhex⟩
  · obtain ⟨taken, htaken, -⟩ := numberWidth?_eq_some_iff.1 hwidth
    exact .inl ⟨taken, htaken.mem, htaken.isPrefix⟩
  obtain ⟨digits, left, rfl, hdigits, hleft, hrun⟩ := Script.exists_run isHexDigit rest
  refine .inr ⟨hcontext, digits, left, rfl, ⟨?_, hdigits⟩, hleft⟩
  rintro rfl
  obtain ⟨d, hd, hdigit⟩ := Option.any_eq_true .. |>.1 hhex
  rw [hleft d hd] at hdigit
  cases hdigit

/-- Where numbers are read, the next token is a number if and only if the text starts with a
numeral, and it is the longest one with the unit behind it. Right of a colon, the other tokens of
that kind are hash signs with all hexadecimal digits behind them. None changes the context. -/
theorem number_exact (hreach : Reaches .start start line spans (.style (.code context)) text)
    (hreads : ReadsNumbers context text) (scope : LinkScope) (base : Nat) :
    ((∃ token, IsNext scope line base start spans token ∧ IsNumber token) ↔
      ∃ taken ∈ numeral, taken <+: text) ∧
    ((∃ taken ∈ numeral, taken <+: text) → ∃ taken left,
      text = taken ++ left ∧ numeral.IsLongest text taken ∧
      CutsOff scope (.style (.code context)) text
        [⟨.literalDecimalInt, .style, taken ++ unitOf left, .empty⟩] (.style (.code context))) ∧
    ∀ token, context = .propertyValue → IsNext scope line base start spans token →
      token.kind = .literalDecimalInt → ¬IsNumber token → ∃ digits left,
        text = '#' :: (digits ++ left) ∧ digits ∈ many1 isHexDigit ∧
        (∀ c ∈ left.head?, isHexDigit c = false) ∧
        CutsOff scope (.style (.code context)) text
          [⟨.literalDecimalInt, .style, '#' :: digits, .empty⟩] (.style (.code context)) := by
  refine ⟨⟨?_, fun h => exists_isNumber hreach hreads h scope base⟩, ?_, ?_⟩
  · rintro ⟨token, hnext, hkind, hhash⟩
    rcases numeral_or_hash_of_isNext hreach hreads hnext hkind with
      hnumeral | ⟨rfl, digits, left, rfl, hdigits, hleft⟩
    · exact hnumeral
    · rw [hnext.unique ((cutsOff_hash scope hdigits hleft).isNext hreach base)] at hhash
      exact absurd rfl hhash
  · intro h
    obtain ⟨taken, hlongest⟩ := exists_isLongest_numeral h
    obtain ⟨left, htext⟩ := hlongest.isPrefix
    exact ⟨taken, left, htext.symm, hlongest, cutsOff_number scope hreads htext.symm hlongest⟩
  · intro token _ hnext hkind hnot
    rcases numeral_or_hash_of_isNext hreach hreads hnext hkind with
      hnumeral | ⟨rfl, digits, left, rfl, hdigits, hleft⟩
    · obtain ⟨other, hother, hnumber⟩ := exists_isNumber hreach hreads hnumeral scope base
      rw [hnext.unique hother] at hnot
      exact absurd hnumber hnot
    · exact ⟨digits, left, rfl, hdigits, hleft, cutsOff_hash scope hdigits hleft⟩

end

/-- A number with a sign, a point and a unit in capitals, right of a colon. -/
theorem number_exact_of_margin :
    let line := "margin: -1.5EM".toList
    let spans := (haltAfter 3 .start (.style (.code .propertyKey)) line).spans
    let text := "-1.5EM".toList
    Reaches .start (.style (.code .propertyKey)) line spans (.style (.code .propertyValue)) text ∧
      ReadsNumbers .propertyValue text ∧
      ∃ token, IsNext .off line 0 (.style (.code .propertyKey)) spans token ∧ IsNumber token := by
  intro line spans text
  have hreach : Reaches .start (.style (.code .propertyKey)) line spans
      (.style (.code .propertyValue)) text :=
    reaches_of_haltAfter_eq 3 (by decide +kernel)
  have hnumeral : "-1.5".toList ∈ numeral :=
    mem_numeral_iff.2 ⟨['-'], ['1'], ['.', '5'], rfl, .inr ⟨'-', by decide, rfl⟩, by simp [many],
      .inr ⟨['.'], ⟨'.', by decide, rfl⟩, ['5'], by simp [many], rfl⟩, .inl (by decide)⟩
  have hprefix : "-1.5".toList <+: text := ⟨"EM".toList, rfl⟩
  exact ⟨hreach, .inl rfl,
    (number_exact hreach (.inl rfl) .off 0).1.2 ⟨_, hnumeral, hprefix⟩⟩

end LineLexer.Style
