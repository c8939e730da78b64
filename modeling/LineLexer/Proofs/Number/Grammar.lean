import LineLexer.Grammar.Script.Number
import LineLexer.Proofs.Text.Stretch
import Mathlib.Data.List.Basic
import Mathlib.Data.Set.Insert

/-!
# Grammars of numbers

The grammars of the numbers of scripts (`hexInt`, `decimalInt`, `float`), and what the measures of
the parts of a number have to do with the grammars of the parts. Each measure is seen from three
sides. A text of the grammar of a part, before what does not go on with it, is measured in full
(`exponentWidth_append_of_head?`); what is measured at the head of any text is in the grammar
(`exists_exponent`); and more text behind a text lets a part go on only if the part is all of the
text (`exponentWidth_append`).
-/

namespace LineLexer

/-! ## Grammars -/

/-- A grammar is the set of its texts. -/
abbrev Grammar := Set Text

namespace Grammar

/-- One of some characters. -/
def oneOf (chars : List Char) : Grammar := {text | ∃ c ∈ chars, text = [c]}

/-- One character of a class. -/
def single (p : Char → Bool) : Grammar := {text | ∃ c, p c = true ∧ text = [c]}

/-- Any number of characters of a class. -/
def many (p : Char → Bool) : Grammar := {text | ∀ c ∈ text, p c = true}

/-- Characters of a class, at least one. -/
def many1 (p : Char → Bool) : Grammar := {text | text ≠ [] ∧ text ∈ many p}

/-- A text of a grammar or none. -/
def opt (grammar : Grammar) : Grammar := insert [] grammar

/-- A text of one grammar with one of another behind it. -/
def seq (first second : Grammar) : Grammar :=
  {text | ∃ a ∈ first, ∃ b ∈ second, text = a ++ b}

/-- Texts that one of some characters starts. -/
theorem mem_seq_oneOf_iff {chars : List Char} {grammar : Grammar} {text : Text} :
    text ∈ seq (oneOf chars) grammar ↔ ∃ c ∈ chars, ∃ rest ∈ grammar, text = c :: rest := by
  constructor
  · rintro ⟨_, ⟨c, hc, rfl⟩, rest, hrest, rfl⟩
    exact ⟨c, hc, rest, hrest, rfl⟩
  · rintro ⟨c, hc, rest, hrest, rfl⟩
    exact ⟨[c], ⟨c, hc, rfl⟩, rest, hrest, rfl⟩

/-- The longest text of a grammar that another text starts with. -/
structure IsLongest (grammar : Grammar) (text taken : Text) : Prop where
  mem : taken ∈ grammar
  isPrefix : taken <+: text
  length_le : ∀ other ∈ grammar, other <+: text → other.length ≤ taken.length

/-- Two longest texts are the same. -/
theorem IsLongest.unique {grammar : Grammar} {text taken other : Text}
    (h : grammar.IsLongest text taken) (hother : grammar.IsLongest text other) : taken = other :=
  (List.prefix_of_prefix_length_le h.isPrefix hother.isPrefix
    (hother.length_le taken h.mem h.isPrefix)).eq_of_length_le
      (h.length_le other hother.mem hother.isPrefix)

/-- A measure that finds only texts of a grammar, and for each of them no less than it, finds the
longest one. -/
theorem eq_some_iff_isLongest {grammar : Grammar} {text : Text} {measured : Option Nat}
    (hsound : ∀ width, measured = some width →
      ∃ taken rest, text = taken ++ rest ∧ taken ∈ grammar ∧ taken.length = width)
    (hcomplete : ∀ taken ∈ grammar, taken <+: text →
      ∃ width, measured = some width ∧ taken.length ≤ width) (width : Nat) :
    measured = some width ↔ ∃ taken, grammar.IsLongest text taken ∧ taken.length = width := by
  have hlongest : ∀ width, measured = some width →
      ∃ taken, grammar.IsLongest text taken ∧ taken.length = width := by
    intro width h
    obtain ⟨taken, rest, htext, hmem, hlength⟩ := hsound width h
    refine ⟨taken, ⟨hmem, ⟨rest, htext.symm⟩, fun other hother hprefix => ?_⟩, hlength⟩
    obtain ⟨most, hmost, hle⟩ := hcomplete other hother hprefix
    rw [h] at hmost
    rwa [hlength, Option.some.inj hmost]
  refine ⟨hlongest width, ?_⟩
  rintro ⟨taken, htaken, rfl⟩
  obtain ⟨width, hwidth, -⟩ := hcomplete taken htaken.mem htaken.isPrefix
  obtain ⟨other, hother, hlength⟩ := hlongest width hwidth
  rw [hwidth, ← hlength, hother.unique htaken]

end Grammar

namespace Script

open Grammar

/-- The suffixes of an integer: `[lL]`. -/
def longSuffix : Grammar := oneOf ['l', 'L']

/-- The suffixes of a floating-point number: `[fFdD]`. -/
def floatSuffix : Grammar := oneOf ['f', 'F', 'd', 'D']

/-- Hexadecimal integers: `0[xX]H+[lL]?`. -/
def hexInt : Grammar :=
  seq (oneOf ['0']) (seq (oneOf ['x', 'X']) (seq (many1 isHexDigit) (opt longSuffix)))

/-- Decimal integers: `D+[lL]?`. -/
def decimalInt : Grammar :=
  seq (many1 Char.isDigit) (opt longSuffix)

/-- Signs: `[+-]`. -/
def sign : Grammar := oneOf ['+', '-']

/-- Exponents: `E = [eE][+-]?D+`. -/
def exponent : Grammar :=
  seq (oneOf ['e', 'E']) (seq (opt sign) (many1 Char.isDigit))

/-- Points with digits behind them: `.D*`. -/
def fraction : Grammar :=
  seq (oneOf ['.']) (many Char.isDigit)

/-- Floating-point numbers: `(D+.D*|.D+)E?[fFdD]?`, `D+E[fFdD]?` and `D+[fFdD]`. -/
def float : Grammar :=
  seq (seq (many1 Char.isDigit) fraction ∪ seq (oneOf ['.']) (many1 Char.isDigit))
      (seq (opt exponent) (opt floatSuffix)) ∪
    seq (many1 Char.isDigit) (seq exponent (opt floatSuffix)) ∪
    seq (many1 Char.isDigit) floatSuffix

/-- The mark of a hexadecimal number without a digit: `0[xX]`. -/
def bareMark : Grammar :=
  seq (oneOf ['0']) (oneOf ['x', 'X'])

/-- The grammar of a kind of number. -/
def grammarOf : Kind → Grammar
  | .literalHexInt => hexInt
  | .literalDecimalInt => decimalInt
  | .literalFloat => float
  | _ => ∅

/-! ## Runs -/

section

variable {p : Char → Bool}

/-- A run before a character that does not go on with it is taken as a whole. -/
theorem runLength_append_of_head? {run rest : Text} (h : ∀ c ∈ run, p c = true)
    (hrest : ∀ c ∈ rest.head?, p c = false) : runLength p (run ++ rest) = run.length := by
  rw [runLength, List.takeWhile_append_of_pos h]
  cases rest with
  | nil => simp
  | cons c rest => simp [hrest c rfl]

/-- A run goes over all characters of its class that a text starts with. -/
theorem length_le_runLength {run : Text} (h : ∀ c ∈ run, p c = true) (rest : Text) :
    run.length ≤ runLength p (run ++ rest) := by
  rw [runLength, List.takeWhile_append_of_pos h, List.length_append]
  exact Nat.le_add_right ..

/-- A text falls into a run and what does not go on with it. -/
theorem exists_run (p : Char → Bool) (text : Text) : ∃ run rest, text = run ++ rest ∧
    (∀ c ∈ run, p c = true) ∧ (∀ c ∈ rest.head?, p c = false) ∧ runLength p text = run.length := by
  refine ⟨text.takeWhile p, text.drop (runLength p text), ?_, ?_, head?_drop_runLength p text, rfl⟩
  · rw [← take_runLength, List.take_append_drop]
  · exact fun c hc => List.all_eq_true.1 List.all_takeWhile c hc

/-- More text behind it lets a run go on only if it is all of the text. -/
theorem runLength_append (p : Char → Bool) (text more : Text) :
    runLength p (text ++ more) = runLength p text ∨
      runLength p text = text.length ∧ text.length ≤ runLength p (text ++ more) := by
  obtain ⟨run, rest, rfl, hrun, hrest, hlength⟩ := exists_run p text
  cases rest with
  | nil =>
    refine .inr ⟨by simpa using hlength, ?_⟩
    rw [List.append_nil, runLength, List.takeWhile_append_of_pos hrun, List.length_append]
    exact Nat.le_add_right ..
  | cons c rest =>
    refine .inl ?_
    rw [hlength, List.append_assoc]
    exact runLength_append_of_head? hrun hrest

end

/-! ## Fractions, exponents and suffixes -/

section

variable {text rest : Text}

/-- A fraction is taken as a whole before what does not go on with it. -/
theorem fractionWidth_append_of_head? (h : text ∈ opt fraction)
    (hrest : ∀ c ∈ rest.head?, c ≠ '.' ∧ c.isDigit = false) :
    fractionWidth (text ++ rest) = text.length := by
  rcases h with rfl | ⟨_, ⟨c, hc, rfl⟩, digits, hdigits, rfl⟩
  · have hpoint : rest.head? ≠ some '.' := fun h => (hrest '.' h).1 rfl
    simp [fractionWidth, hpoint]
  · obtain rfl := List.mem_singleton.1 hc
    have hrun := runLength_append_of_head? hdigits fun c hc => (hrest c hc).2
    simp [fractionWidth, digitsWidth, hrun, Nat.add_comm]

/-- A text falls into its fraction, if it has one, and what is left. -/
theorem exists_fraction (text : Text) : ∃ taken rest, text = taken ++ rest ∧
    taken ∈ opt fraction ∧ fractionWidth text = taken.length := by
  by_cases hpoint : text.head? = some '.'
  · obtain ⟨rest, rfl⟩ := List.head?_eq_some_iff.1 hpoint
    obtain ⟨digits, rest, rfl, hdigits, -, hlength⟩ := exists_run Char.isDigit rest
    refine ⟨'.' :: digits, rest, rfl, .inr ⟨['.'], ⟨'.', by simp, rfl⟩, digits, hdigits, rfl⟩, ?_⟩
    simp [fractionWidth, digitsWidth, hlength, Nat.add_comm]
  · exact ⟨[], text, rfl, .inl rfl, if_neg hpoint⟩

/-- More text behind it lets a fraction go on only if it is all of the text. -/
theorem fractionWidth_append (text more : Text) :
    fractionWidth (text ++ more) = fractionWidth text ∨
      fractionWidth text = text.length ∧ text.length ≤ fractionWidth (text ++ more) := by
  cases text with
  | nil => exact .inr ⟨rfl, Nat.zero_le _⟩
  | cons c text =>
    by_cases hpoint : c = '.'
    · have hrun := runLength_append Char.isDigit text more
      simp only [fractionWidth, digitsWidth, hpoint, List.cons_append, List.head?_cons, if_true,
        List.drop_succ_cons, List.drop_zero, List.length_cons]
      omega
    · exact .inl (by simp [fractionWidth, hpoint])

/-- A sign is taken before what is none. -/
theorem signWidth_append_of_head? (h : text ∈ opt sign) (hrest : ∀ c ∈ rest.head?, c ∉ ['+', '-']) :
    signWidth (text ++ rest) = text.length := by
  rcases h with rfl | ⟨c, hc, rfl⟩
  · have hnone : ¬(rest.head? = some '+' ∨ rest.head? = some '-') := by
      rintro (h | h) <;> exact hrest _ h (by simp)
    simp [signWidth, hnone]
  · have hsign : c = '+' ∨ c = '-' := by simpa using hc
    simp [signWidth, hsign]

/-- A text falls into its sign, if it has one, and what is left. -/
theorem exists_sign (text : Text) : ∃ taken rest, text = taken ++ rest ∧ taken ∈ opt sign ∧
    signWidth text = taken.length := by
  by_cases hsign : text.head? = some '+' ∨ text.head? = some '-'
  · rcases hsign with h | h <;> obtain ⟨rest, rfl⟩ := List.head?_eq_some_iff.1 h
    · exact ⟨['+'], rest, rfl, .inr ⟨'+', by simp, rfl⟩, by simp [signWidth]⟩
    · exact ⟨['-'], rest, rfl, .inr ⟨'-', by simp, rfl⟩, by simp [signWidth]⟩
  · exact ⟨[], text, rfl, .inl rfl, if_neg hsign⟩

/-- Only the mark of an exponent starts one. -/
theorem exponentWidth_of_head? (h : ∀ c ∈ text.head?, c ∉ ['e', 'E']) : exponentWidth text = 0 := by
  refine if_neg ?_
  rintro (hmark | hmark) <;> exact h _ hmark (by simp)

/-- An exponent is its mark with a sign, if there is one, and digits. -/
theorem exponentWidth_cons {c : Char} (hc : c ∈ ['e', 'E']) (rest : Text) :
    exponentWidth (c :: rest) =
      if digitsWidth (rest.drop (signWidth rest)) = 0 then 0
      else 1 + signWidth rest + digitsWidth (rest.drop (signWidth rest)) := by
  have hmark : (c :: rest).head? = some 'e' ∨ (c :: rest).head? = some 'E' := by simpa using hc
  rw [exponentWidth, if_pos hmark]
  simp only [List.drop_succ_cons, List.drop_zero, Nat.add_comm 1]

/-- An exponent is taken as a whole before what does not go on with it. -/
theorem exponentWidth_append_of_head? (h : text ∈ opt exponent)
    (hrest : ∀ c ∈ rest.head?, c ∉ ['e', 'E'] ∧ c.isDigit = false) :
    exponentWidth (text ++ rest) = text.length := by
  rcases h with rfl | ⟨_, ⟨c, hc, rfl⟩, _, ⟨mark, hmark, digits, ⟨hne, hdigits⟩, rfl⟩, rfl⟩
  · exact exponentWidth_of_head? fun c hc => (hrest c hc).1
  · have hrun := runLength_append_of_head? hdigits fun c hc => (hrest c hc).2
    have hsign : signWidth (mark ++ (digits ++ rest)) = mark.length := by
      refine signWidth_append_of_head? hmark fun d hd hplus => ?_
      -- A digit stands behind the sign.
      rw [List.head?_append_of_ne_nil _ hne] at hd
      have hdigit := hdigits d (List.mem_of_head? hd)
      simp only [List.mem_cons, List.not_mem_nil, or_false] at hplus
      rcases hplus with rfl | rfl <;> revert hdigit <;> decide
    have hlength : digits.length ≠ 0 := fun h => hne (List.length_eq_zero_iff.1 h)
    have hwidth := exponentWidth_cons hc (mark ++ (digits ++ rest))
    rw [hsign, List.drop_left, digitsWidth, hrun, if_neg hlength] at hwidth
    have htext : [c] ++ (mark ++ digits) ++ rest = c :: (mark ++ (digits ++ rest)) := by simp
    have htake : ([c] ++ (mark ++ digits)).length = 1 + mark.length + digits.length := by
      simp only [List.length_append, List.length_singleton, Nat.add_assoc]
    exact (congrArg exponentWidth htext).trans (hwidth.trans htake.symm)

/-- A text falls into its exponent, if it has one, and what is left. -/
theorem exists_exponent (text : Text) : ∃ taken rest, text = taken ++ rest ∧
    taken ∈ opt exponent ∧ exponentWidth text = taken.length := by
  by_cases hmark : ∀ c ∈ text.head?, c ∉ ['e', 'E']
  · exact ⟨[], text, rfl, .inl rfl, exponentWidth_of_head? hmark⟩
  · simp only [not_forall, not_not] at hmark
    obtain ⟨c, hhead, hc⟩ := hmark
    obtain ⟨rest, rfl⟩ := List.head?_eq_some_iff.1 hhead
    obtain ⟨mark, rest, rfl, hsign, hwidth⟩ := exists_sign rest
    obtain ⟨digits, rest, rfl, hdigits, -, hlength⟩ := exists_run Char.isDigit rest
    have htaken := exponentWidth_cons hc (mark ++ (digits ++ rest))
    rw [hwidth, List.drop_left, digitsWidth, hlength] at htaken
    by_cases hne : digits = []
    · exact ⟨[], _, rfl, .inl rfl, by rw [htaken, hne]; rfl⟩
    · refine ⟨c :: (mark ++ digits), rest, by simp, ?_, ?_⟩
      · exact .inr ⟨[c], ⟨c, hc, rfl⟩, _, ⟨mark, hsign, digits, ⟨hne, hdigits⟩, rfl⟩, rfl⟩
      · rw [htaken, if_neg (fun h => hne (List.length_eq_zero_iff.1 h))]
        simp only [List.length_cons, List.length_append]
        omega

/-- More text behind it lets an exponent go on only if it is all of the text, or if the text starts
with a mark that has no digit yet. -/
theorem exponentWidth_append (text more : Text) :
    exponentWidth (text ++ more) = exponentWidth text ∨
      (exponentWidth text = text.length ∧ text.length ≤ exponentWidth (text ++ more)) ∨
      exponentWidth text = 0 ∧ ∃ c ∈ text.head?, c ∈ ['e', 'E'] := by
  cases text with
  | nil => exact .inr (.inl ⟨rfl, Nat.zero_le _⟩)
  | cons c rest =>
    by_cases hc : c ∈ ['e', 'E']
    · by_cases hzero : exponentWidth (c :: rest) = 0
      · exact .inr (.inr ⟨hzero, c, rfl, hc⟩)
      -- A digit is there already, so the sign stays as it is and only the run of digits can grow.
      obtain ⟨mark, rest, rfl, hsign, hwidth⟩ := exists_sign rest
      have htaken := exponentWidth_cons hc (mark ++ rest)
      rw [hwidth, List.drop_left] at htaken
      have hdigits : digitsWidth rest ≠ 0 := by
        intro h
        rw [htaken, if_pos h] at hzero
        exact hzero rfl
      have hne : rest ≠ [] := by
        rintro rfl
        exact hdigits rfl
      have hmore : signWidth (mark ++ (rest ++ more)) = mark.length := by
        refine signWidth_append_of_head? hsign fun d hd hplus => ?_
        rw [List.head?_append_of_ne_nil _ hne] at hd
        obtain ⟨tail, rfl⟩ := List.head?_eq_some_iff.1 hd
        have hdigit : d.isDigit = false := by
          simp only [List.mem_cons, List.not_mem_nil, or_false] at hplus
          rcases hplus with rfl | rfl <;> decide
        exact hdigits (by simp [digitsWidth, runLength, hdigit])
      have hrun : digitsWidth (rest ++ more) = digitsWidth rest ∨
          digitsWidth rest = rest.length ∧ rest.length ≤ digitsWidth (rest ++ more) :=
        runLength_append Char.isDigit rest more
      have hdigitsMore : digitsWidth (rest ++ more) ≠ 0 := by omega
      have htakenMore := exponentWidth_cons hc (mark ++ (rest ++ more))
      rw [hmore, List.drop_left, if_neg hdigitsMore] at htakenMore
      rw [if_neg hdigits] at htaken
      rw [List.cons_append, List.append_assoc, htaken, htakenMore, List.length_cons,
        List.length_append]
      omega
    · refine .inl ?_
      have hnone : ∀ d ∈ (c :: rest).head?, d ∉ ['e', 'E'] := by
        rintro d ⟨⟩
        exact hc
      rw [exponentWidth_of_head? hnone, List.cons_append, exponentWidth_of_head?]
      exact hnone

end

end Script

end LineLexer
