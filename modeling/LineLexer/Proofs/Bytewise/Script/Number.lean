import LineLexer.Grammar.Script.Number
import LineLexer.Proofs.Bytewise.Reader

/-!
# Reading script numbers

Numbers of scripts part by part, each as a move of the cursor over the bytes. All parts are of ASCII
characters, so from a place between characters the cursor moves by as many characters as the grammar
measures (`Cursor.numeral_stand`).
-/

namespace LineLexer

/-- A run is empty if the first character does not pass. -/
theorem runLength_eq_zero {p : Char → Bool} {text : Text} :
    runLength p text = 0 ↔ text.head?.any p = false := by
  cases text with
  | nil => simp [runLength]
  | cons c rest => cases hc : p c <;> simp [runLength, hc]

/-- Behind ASCII characters the bytes are read as at the start of the rest. -/
theorem byteAt_drop {text : Text} {n : Nat} (h : AllAscii (text.take n)) :
    byteAt text n = byteAt (text.drop n) 0 := by
  rw [byteAt, byteAt, ← drop_bytewise h, List.getElem?_drop, Nat.add_zero]

namespace Cursor

/-! ## Parts of decimal numbers -/

/-- Moves over a point and the digits after it, and tells whether there is one. -/
def fraction (cursor : Cursor) : Bool × Cursor :=
  if cursor.look = '.' then (true, (cursor.moveBy 1).eat Char.isDigit) else (false, cursor)

/-- Moves over an exponent, and tells whether there is one. -/
def exponent (cursor : Cursor) : Bool × Cursor :=
  if cursor.look = 'e' ∨ cursor.look = 'E' then
    let digit := if cursor.lookAt 1 = '+' ∨ cursor.lookAt 1 = '-' then 2 else 1
    if (cursor.lookAt digit).isDigit then (true, (cursor.moveBy digit).eat Char.isDigit)
    else (false, cursor)
  else (false, cursor)

/-- Moves over the suffix of a decimal number, and tells the kind of the number. -/
def decimalSuffix (isFloat : Bool) (cursor : Cursor) : Kind × Cursor :=
  let c := cursor.look
  if c = 'f' || c = 'F' || c = 'd' || c = 'D' then (.literalFloat, cursor.moveBy 1)
  else if (c = 'l' || c = 'L') && !isFloat then (.literalDecimalInt, cursor.moveBy 1)
  else (if isFloat then .literalFloat else .literalDecimalInt, cursor)

/-- Moves over a decimal number. -/
def decimal (cursor : Cursor) : Kind × Cursor :=
  let (isPoint, cursor) := (cursor.eat Char.isDigit).fraction
  let (isExponent, cursor) := cursor.exponent
  cursor.decimalSuffix (isPoint || isExponent)

/-- Moves over a hexadecimal number, from its two-character mark on. -/
def hexadecimal (cursor : Cursor) : Kind × Cursor :=
  let mark := cursor.moveBy 2
  let digits := mark.eat isHexDigit
  if digits.pos = mark.pos then (.errorNumber, digits)
  else if digits.look = 'l' ∨ digits.look = 'L' then (.literalHexInt, digits.moveBy 1)
  else (.literalHexInt, digits)

/-- Moves over a number, whatever follows it. -/
def numeral (cursor : Cursor) : Kind × Cursor :=
  if cursor.look = '0' ∧ (cursor.lookAt 1 = 'x' ∨ cursor.lookAt 1 = 'X') then cursor.hexadecimal
  else cursor.decimal

section

variable (head text : Text) (n : Nat)

/-- A point and the digits after it. -/
theorem fraction_stand :
    (stand head text n).fraction =
      (decide (0 < fractionWidth (text.drop n)),
        stand head text (n + fractionWidth (text.drop n))) := by
  rw [fraction, fractionWidth]
  simp (disch := decide) only [look_stand_eq]
  split
  next hpoint =>
    have hpos : 0 < 1 + digitsWidth ((text.drop n).drop 1) := by omega
    rw [decide_eq_true hpos, moveBy_stand (allAscii_take_one (by decide) hpoint),
      eat_stand asciiOnly_isDigit.uniform, List.drop_drop, Nat.add_assoc, digitsWidth]
  next => rfl

/-- An exponent. -/
theorem exponent_stand :
    (stand head text n).exponent =
      (decide (0 < Script.exponentWidth (text.drop n)),
        stand head text (n + Script.exponentWidth (text.drop n))) := by
  simp (disch := decide) only [exponent, Script.exponentWidth, look_stand_eq]
  split
  next hmark =>
    have hone : AllAscii ((text.drop n).take 1) := by
      rcases hmark with hmark | hmark <;> exact allAscii_take_one (by decide) hmark
    have hascii := allAscii_take_add hone (allAscii_signWidth ((text.drop n).drop 1))
    -- The mark and the sign are single bytes, so the byte after them is the next character's.
    have hdigit : (if (stand head text n).lookAt 1 = '+' ∨ (stand head text n).lookAt 1 = '-' then 2
        else 1) = 1 + signWidth ((text.drop n).drop 1) := by
      rw [lookAt_stand, byteAt_drop hone, signWidth]
      simp (disch := decide) only [byteAt_eq]
      split <;> rfl
    have hlook : ((stand head text n).lookAt (1 + signWidth ((text.drop n).drop 1))).isDigit =
        ((text.drop n).drop (1 + signWidth ((text.drop n).drop 1))).head?.any Char.isDigit := by
      rw [lookAt_stand, byteAt_drop hascii, test_byteAt asciiOnly_isDigit.uniform (by decide)]
    have hzero : digitsWidth ((text.drop n).drop (1 + signWidth ((text.drop n).drop 1))) = 0 ↔
        ((text.drop n).drop (1 + signWidth ((text.drop n).drop 1))).head?.any Char.isDigit =
          false :=
      runLength_eq_zero
    simp only [hdigit, hlook, hzero]
    cases ((text.drop n).drop (1 + signWidth ((text.drop n).drop 1))).head?.any Char.isDigit with
    | false => rfl
    | true =>
      have hpos : 0 < 1 + signWidth ((text.drop n).drop 1) +
          digitsWidth ((text.drop n).drop (1 + signWidth ((text.drop n).drop 1))) := by omega
      simp only [if_true, Bool.true_eq_false, if_false]
      rw [decide_eq_true hpos, moveBy_stand hascii, eat_stand asciiOnly_isDigit.uniform,
        ← List.drop_drop, ← digitsWidth, Nat.add_assoc n]
  next => rfl

/-- The suffix of a decimal number. -/
theorem decimalSuffix_stand (isFloat : Bool) :
    (stand head text n).decimalSuffix isFloat =
      ((Script.decimalSuffix isFloat (text.drop n)).1,
        stand head text (n + (Script.decimalSuffix isFloat (text.drop n)).2)) := by
  simp (disch := decide) only [decimalSuffix, look_stand_eq]
  cases hdrop : text.drop n with
  | nil => simp [Script.decimalSuffix]
  | cons c rest =>
    have hone : isNonAscii c = false → (stand head text n).moveBy 1 = stand head text (n + 1) :=
      fun hc => moveBy_stand (allAscii_take_one hc (by rw [hdrop]; rfl))
    simp only [List.head?_cons, Option.some.injEq, Script.decimalSuffix]
    split
    next hc =>
      simp only [Bool.or_eq_true, decide_eq_true_eq] at hc
      rw [hone (by rcases hc with ((rfl | rfl) | rfl) | rfl <;> rfl)]
    cases isFloat with
    | true => simp
    | false =>
      simp only [Bool.not_false, Bool.and_true, Bool.false_eq_true, if_false]
      split
      next hc =>
        simp only [Bool.or_eq_true, decide_eq_true_eq] at hc
        rw [hone (by rcases hc with rfl | rfl <;> rfl)]
      next => rfl

/-- A decimal number. -/
theorem decimal_stand :
    (stand head text n).decimal =
      ((Script.decimal (text.drop n)).1,
        stand head text (n + (Script.decimal (text.drop n)).2)) := by
  simp only [decimal, Script.decimal, eat_stand asciiOnly_isDigit.uniform, fraction_stand,
    exponent_stand, decimalSuffix_stand, List.drop_drop, digitsWidth, Nat.add_assoc]

/-- A hexadecimal number, from its mark on. -/
theorem hexadecimal_stand (h : AllAscii ((text.drop n).take 2)) :
    (stand head text n).hexadecimal =
      ((Script.hexadecimal ((text.drop n).drop 2)).1,
        stand head text (n + (Script.hexadecimal ((text.drop n).drop 2)).2)) := by
  have hascii := allAscii_take_runLength asciiOnly_isHexDigit (text.drop (n + 2))
  have hpos : (stand head text (n + 2 + runLength isHexDigit (text.drop (n + 2)))).pos =
      (stand head text (n + 2)).pos + runLength isHexDigit (text.drop (n + 2)) :=
    pos_stand_add hascii (runLength_le ..)
  have hzero : (stand head text (n + 2)).pos + runLength isHexDigit (text.drop (n + 2)) =
      (stand head text (n + 2)).pos ↔ runLength isHexDigit (text.drop (n + 2)) = 0 := by omega
  simp (disch := decide) only [hexadecimal, moveBy_stand h, eat_stand asciiOnly_isHexDigit.uniform,
    hpos, hzero, look_stand_eq, Script.hexadecimal, List.drop_drop]
  split
  next hnone =>
    rw [hnone]
    rfl
  split
  next hlong =>
    have hone : AllAscii
        ((text.drop (n + 2 + runLength isHexDigit (text.drop (n + 2)))).take 1) := by
      rcases hlong with hlong | hlong <;> exact allAscii_take_one (by decide) hlong
    rw [moveBy_stand hone, Nat.add_assoc n, Nat.add_assoc n]
  next =>
    rw [Nat.add_assoc n]
    rfl

/-- A number, whatever follows it. -/
theorem numeral_stand (c : Char) (rest : Text) :
    (stand head (c :: rest) 0).numeral =
      ((Script.numeral c rest).1, stand head (c :: rest) (Script.numeral c rest).2) := by
  have hmark : (c = '0' ∧ ((stand head (c :: rest) 0).lookAt 1 = 'x' ∨
      (stand head (c :: rest) 0).lookAt 1 = 'X')) ↔
        (c = '0' ∧ (rest.head? = some 'x' ∨ rest.head? = some 'X')) := by
    refine and_congr_right fun hc => ?_
    subst hc
    simp (disch := decide) only [lookAt_stand, List.drop_zero, byteAt_cons_succ, byteAt_eq]
  simp (disch := decide) only [numeral, look_stand_cons, hmark, Script.numeral]
  split
  next h =>
    obtain ⟨rfl, hx⟩ := h
    have hzero : AllAscii (('0' :: rest).take 1) := allAscii_take_one (x := '0') (by decide) rfl
    have hascii : AllAscii (('0' :: rest).take (1 + 1)) := by
      refine allAscii_take_add hzero ?_
      rcases hx with hx | hx <;> exact allAscii_take_one (by decide) hx
    have hnumber := hexadecimal_stand head ('0' :: rest) 0 hascii
    rw [Nat.zero_add] at hnumber
    exact hnumber
  next =>
    have hnumber := decimal_stand head (c :: rest) 0
    rw [Nat.zero_add] at hnumber
    exact hnumber

end

end Cursor

end LineLexer
