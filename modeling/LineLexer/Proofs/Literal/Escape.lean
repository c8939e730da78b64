import LineLexer.Proofs.LineBreak.Script
import LineLexer.Proofs.Text.Stretch
import Mathlib.Algebra.Group.Nat.Even
import Mathlib.Data.List.TakeWhile
import Mathlib.Order.Bounds.Basic

/-!
# Escapes in quoted texts

Whether a character of a quoted text is escaped can be told without reading the text from its start:
it is if an odd number of backslashes stands directly before it (`IsUnescaped`). The grammars do
read from the start, unit by unit, where a unit is a character or a backslash with what it escapes.
They differ in how much a backslash escapes: in a style sheet one character, in a script a sequence
whose length depends on its digits, of which a malformed one leaves some to the text. It makes no
difference, because the characters after the first of a sequence are none that matter (`IsUnit`):
what is bare behind a unit is what is bare in the text (`mem_bare_iff`). So a search for the first
bare mark may step from unit to unit (`IsThroughFirst.add`).
-/

namespace LineLexer

/-! ## Characters that no backslash escapes -/

/-- The number of backslashes directly before a place. -/
def backslashesBefore (text : Text) (place : Nat) : Nat :=
  ((text.take place).reverse.takeWhile (· == '\\')).length

/-- An even number of backslashes stands directly before a place, so none of them escapes what
stands there. -/
def IsUnescaped (text : Text) (place : Nat) : Prop :=
  Even (backslashesBefore text place)

instance (text : Text) : DecidablePred (IsUnescaped text) :=
  fun place => inferInstanceAs (Decidable (Even (backslashesBefore text place)))

/-- The places of a character where it is not escaped. -/
def bare (mark : Char) (text : Text) : Set Nat :=
  {place | text[place]? = some mark ∧ IsUnescaped text place}

instance (mark : Char) (text : Text) : DecidablePred (· ∈ bare mark text) :=
  fun place => inferInstanceAs (Decidable (text[place]? = some mark ∧ IsUnescaped text place))

/-- The characters that matter in quoted texts: backslashes, quotation marks of all kinds and the
dollar sign. -/
def isMark (c : Char) : Bool :=
  c == '\\' || c == '"' || c == '\'' || c == '`' || c == '$'

section

variable {text : Text}

/-- At the start of a text nothing is escaped. -/
@[simp] theorem isUnescaped_zero (text : Text) : IsUnescaped text 0 := by
  simp [IsUnescaped, backslashesBefore]

/-- What stands behind a character is escaped if that is a backslash that is not. -/
theorem isUnescaped_succ {place : Nat} {c : Char} (h : text[place]? = some c) :
    IsUnescaped text (place + 1) ↔ (c = '\\' → ¬IsUnescaped text place) := by
  have htake : (text.take (place + 1)).reverse = c :: (text.take place).reverse := by
    rw [List.take_add_one, h, Option.toList_some, List.reverse_append]
    rfl
  unfold IsUnescaped backslashesBefore
  rw [htake, List.takeWhile_cons]
  by_cases hc : c = '\\'
  · simp [hc, Nat.even_add_one]
  · simp [hc]

/-- From a place on where nothing is escaped, the text can be read as one of its own. -/
theorem isUnescaped_add {start : Nat} (h : IsUnescaped text start) (place : Nat)
    (hle : start + place ≤ text.length) :
    IsUnescaped text (start + place) ↔ IsUnescaped (text.drop start) place := by
  induction place with
  | zero => simpa using h
  | succ place ih =>
    have hlt : start + place < text.length := by omega
    have hchar : text[start + place]? = some text[start + place] := List.getElem?_eq_getElem hlt
    have hdrop : (text.drop start)[place]? = some text[start + place] := by
      rw [List.getElem?_drop, hchar]
    rw [← Nat.add_assoc, isUnescaped_succ hchar, isUnescaped_succ hdrop, ih (by omega)]

/-! ## Units -/

/-- The head of a text that is read at once: what stands behind it is not escaped, and what matters
in it, beyond its first character, is escaped. -/
structure IsUnit (text : Text) (width : Nat) : Prop where
  pos : 0 < width
  le : width ≤ text.length
  unescaped : IsUnescaped text width
  inner : ∀ place c, 0 < place → place < width → text[place]? = some c → isMark c = true →
    ¬IsUnescaped text place

/-- The end of a text is escaped or not as it is behind a unit. -/
theorem IsUnit.isUnescaped_length_iff {width : Nat} (h : IsUnit text width) :
    IsUnescaped text text.length ↔ IsUnescaped (text.drop width) (text.drop width).length := by
  have hlength := Nat.add_sub_cancel' h.le
  rw [List.length_drop, ← isUnescaped_add h.unescaped _ (Nat.le_of_eq hlength), hlength]

/-- A character other than a backslash is a unit. -/
theorem isUnit_char {c : Char} (hc : c ≠ '\\') (rest : Text) : IsUnit (c :: rest) 1 where
  pos := Nat.one_pos
  le := by simp
  unescaped := (isUnescaped_succ (show (c :: rest)[0]? = some c from rfl)).2 fun h => absurd h hc
  inner place _ hpos hlt := absurd hlt (Nat.not_lt.2 hpos)

/-- What stands behind a backslash at the start of a text is escaped. -/
theorem not_isUnescaped_one (rest : Text) : ¬IsUnescaped ('\\' :: rest) 1 := by
  simp [isUnescaped_succ (show ('\\' :: rest)[0]? = some '\\' from rfl)]

/-- A backslash is a unit together with what it escapes, if nothing that matters stands there behind
the first character. -/
theorem isUnit_backslash {rest : Text} {width : Nat} (hpos : 0 < width) (hle : width ≤ rest.length)
    (htail : ∀ c ∈ (rest.take width).tail, isMark c = false) :
    IsUnit ('\\' :: rest) (1 + width) := by
  -- A mark in the sequence can only stand directly behind the backslash.
  have hinner : ∀ place c, place < width → rest[place]? = some c → isMark c = true → place = 0 := by
    intro place c hlt hchar hmark
    cases place with
    | zero => rfl
    | succ place =>
      have hmem : c ∈ (rest.take width).tail := by
        refine List.mem_of_getElem? (i := place) ?_
        rw [List.getElem?_tail, List.getElem?_take_of_lt hlt, hchar]
      rw [htail c hmem] at hmark
      cases hmark
  refine ⟨by omega, ?_, ?_, ?_⟩
  · rw [List.length_cons]
    omega
  · obtain ⟨last, rfl⟩ := Nat.exists_eq_add_of_lt hpos
    have hchar : rest[last]? = some rest[last] := List.getElem?_eq_getElem (by omega)
    have hlast : ('\\' :: rest)[last + 1]? = some rest[last] := hchar
    have hwidth : 1 + (0 + last + 1) = last + 1 + 1 := by omega
    rw [hwidth, isUnescaped_succ hlast]
    intro hbackslash
    have hmark : isMark rest[last] = true := by rw [hbackslash]; decide
    obtain rfl := hinner last _ (by omega) hchar hmark
    exact not_isUnescaped_one rest
  · intro place c hplace hlt hchar hmark
    obtain ⟨inner, rfl⟩ := Nat.exists_eq_add_of_lt hplace
    rw [Nat.zero_add] at hchar hlt ⊢
    obtain rfl := hinner inner c (by omega) hchar hmark
    exact not_isUnescaped_one rest

/-- The bare places of a character that a unit holds only as its head or escaped are the head of the
text, if it is one, and those behind the unit. -/
theorem mem_bare_iff_of_inner {width : Nat} (h : IsUnit text width) {mark : Char}
    (hinner : ∀ place, 0 < place → place < width → text[place]? = some mark →
      ¬IsUnescaped text place) {place : Nat} :
    place ∈ bare mark text ↔ place = 0 ∧ text.head? = some mark ∨
      ∃ inner ∈ bare mark (text.drop width), place = width + inner := by
  constructor
  · rintro ⟨hchar, hunescaped⟩
    rcases Nat.lt_or_ge place width with hlt | hle
    · cases place with
      | zero => exact .inl ⟨rfl, by rw [List.head?_eq_getElem?, hchar]⟩
      | succ place => exact absurd hunescaped (hinner _ (Nat.succ_pos place) hlt hchar)
    · have hlt := (List.getElem?_eq_some_iff.1 hchar).1
      obtain ⟨inner, rfl⟩ := Nat.exists_eq_add_of_le hle
      exact .inr ⟨inner, ⟨by rwa [List.getElem?_drop],
        (isUnescaped_add h.unescaped inner (Nat.le_of_lt hlt)).1 hunescaped⟩, rfl⟩
  · rintro (⟨rfl, hhead⟩ | ⟨inner, ⟨hchar, hunescaped⟩, rfl⟩)
    · exact ⟨by rwa [← List.head?_eq_getElem?], isUnescaped_zero text⟩
    · rw [List.getElem?_drop] at hchar
      have hlt := (List.getElem?_eq_some_iff.1 hchar).1
      exact ⟨hchar, (isUnescaped_add h.unescaped inner (Nat.le_of_lt hlt)).2 hunescaped⟩

/-- The bare places of a mark are the head of a text, if it is one, and those behind a unit. -/
theorem mem_bare_iff {width : Nat} (h : IsUnit text width) {mark : Char}
    (hmark : isMark mark = true) {place : Nat} :
    place ∈ bare mark text ↔ place = 0 ∧ text.head? = some mark ∨
      ∃ inner ∈ bare mark (text.drop width), place = width + inner :=
  mem_bare_iff_of_inner h fun place hpos hlt hchar => h.inner place mark hpos hlt hchar hmark

/-- If a text does not start with a mark, its bare places are those behind a unit. -/
theorem mem_bare_iff_of_head? {width : Nat} (h : IsUnit text width) {mark : Char}
    (hmark : isMark mark = true) (hhead : text.head? ≠ some mark) (place : Nat) :
    place ∈ bare mark text ↔ ∃ inner ∈ bare mark (text.drop width), place = width + inner := by
  rw [mem_bare_iff h hmark, or_iff_right]
  exact fun h => hhead h.2

end

/-! ## The first of some places -/

/-- What a search through the first of some places has to find: the width through it. -/
def IsThroughFirst (places : Set Nat) : Option Nat → Prop
  | some width => ∃ place, IsLeast places place ∧ width = place + 1
  | none => places = ∅

section

variable {places : Set Nat}

/-- There is one width through the first place, or none. -/
theorem IsThroughFirst.unique {found other : Option Nat} (h : IsThroughFirst places found)
    (hother : IsThroughFirst places other) : found = other := by
  cases found with
  | none =>
    cases other with
    | none => rfl
    | some other =>
      obtain ⟨place, hleast, -⟩ := hother
      exact absurd hleast.1 (Set.eq_empty_iff_forall_notMem.1 h place)
  | some found =>
    obtain ⟨place, hleast, rfl⟩ := h
    cases other with
    | none => exact absurd hleast.1 (Set.eq_empty_iff_forall_notMem.1 hother place)
    | some other =>
      obtain ⟨last, hlast, rfl⟩ := hother
      rw [hleast.unique hlast]

/-- The first place is found. -/
theorem IsThroughFirst.eq_some {found : Option Nat} (h : IsThroughFirst places found) {place : Nat}
    (hleast : IsLeast places place) : found = some (place + 1) := by
  have hfirst : IsThroughFirst places (some (place + 1)) := ⟨place, hleast, rfl⟩
  exact h.unique hfirst

/-- Where there is no place, none is found. -/
theorem IsThroughFirst.eq_none {found : Option Nat} (h : IsThroughFirst places found)
    (hnone : places = ∅) : found = none := by
  have hempty : IsThroughFirst places none := hnone
  exact h.unique hempty

/-- Where there are places, the first one is found. -/
theorem IsThroughFirst.exists_isLeast {found : Option Nat} (h : IsThroughFirst places found)
    (hne : places.Nonempty) : ∃ place, IsLeast places place ∧ found = some (place + 1) := by
  cases found with
  | none => exact absurd h hne.ne_empty
  | some found =>
    obtain ⟨place, hleast, rfl⟩ := h
    exact ⟨place, hleast, rfl⟩

/-- The head of a text comes before all other places. -/
theorem isThroughFirst_head (h : 0 ∈ places) : IsThroughFirst places (some 1) :=
  ⟨0, ⟨h, fun _ _ => Nat.zero_le _⟩, rfl⟩

variable {inner : Set Nat} {width : Nat}
  (hplaces : ∀ place, place ∈ places ↔ ∃ i ∈ inner, place = width + i)

include hplaces

/-- The first of some places, all of which lie behind a width, is the first one from there. -/
theorem exists_isLeast_inner {place : Nat} (h : IsLeast places place) :
    ∃ i, IsLeast inner i ∧ place = width + i := by
  obtain ⟨i, hi, rfl⟩ := (hplaces place).1 h.1
  refine ⟨i, ⟨hi, fun j hj => ?_⟩, rfl⟩
  exact Nat.le_of_add_le_add_left (h.2 ((hplaces _).2 ⟨j, hj, rfl⟩))

/-- What is found from a width on is found behind it. -/
theorem IsThroughFirst.add {found : Option Nat} (h : IsThroughFirst inner found) :
    IsThroughFirst places (found.map (width + ·)) := by
  cases found with
  | none =>
    refine Set.eq_empty_of_forall_notMem fun place hplace => ?_
    obtain ⟨i, hi, -⟩ := (hplaces place).1 hplace
    exact Set.eq_empty_iff_forall_notMem.1 h i hi
  | some found =>
    obtain ⟨place, ⟨hmem, hleast⟩, rfl⟩ := h
    refine ⟨width + place, ⟨(hplaces _).2 ⟨place, hmem, rfl⟩, ?_⟩, rfl⟩
    intro other hother
    obtain ⟨i, hi, rfl⟩ := (hplaces other).1 hother
    exact Nat.add_le_add_left (hleast hi) width

end

/-! ## Escapes of scripts -/

namespace Script

/-- What may stand behind a backslash: two hexadecimal digits after an x, four of them or some in
braces after a u, and any other character. -/
inductive IsWellFormed : Text → Prop
  | byte {digits rest : Text} (hlength : digits.length = 2)
      (hdigits : ∀ c ∈ digits, isHexDigit c = true) : IsWellFormed ('x' :: (digits ++ rest))
  | unit {digits rest : Text} (hlength : digits.length = 4)
      (hdigits : ∀ c ∈ digits, isHexDigit c = true) : IsWellFormed ('u' :: (digits ++ rest))
  | braced {digits rest : Text} (hne : digits ≠ [])
      (hdigits : ∀ c ∈ digits, isHexDigit c = true) :
      IsWellFormed ('u' :: '{' :: (digits ++ '}' :: rest))
  | other {c : Char} {rest : Text} (hx : c ≠ 'x') (hu : c ≠ 'u') : IsWellFormed (c :: rest)

/-- So many hexadecimal digits are taken as a text starts with. -/
theorem hexWidth_eq_iff {count : Nat} {text : Text} :
    hexWidth count text = count ↔ ∃ digits rest, text = digits ++ rest ∧ digits.length = count ∧
      ∀ c ∈ digits, isHexDigit c = true := by
  constructor
  · intro h
    have hle := hexWidth_le count text
    have hlength : (text.take count).length = count := List.length_take_of_le (by omega)
    have hall : (text.take count).takeWhile isHexDigit = text.take count :=
      (List.takeWhile_prefix _).eq_of_length (by rw [hlength]; exact h)
    refine ⟨text.take count, text.drop count, (List.take_append_drop ..).symm, hlength, ?_⟩
    rw [← hall]
    exact fun c hc => List.all_eq_true.1 List.all_takeWhile c hc
  · rintro ⟨digits, rest, rfl, rfl, hdigits⟩
    rw [hexWidth, List.take_left, runLength, List.takeWhile_eq_self_iff.2 hdigits]

/-- An escape in braces holds one digit or more and its closing brace. -/
theorem bracedEscape_eq_true_iff {text : Text} :
    (bracedEscape text).2 = true ↔ ∃ digits rest, text = digits ++ '}' :: rest ∧ digits ≠ [] ∧
      ∀ c ∈ digits, isHexDigit c = true := by
  simp only [bracedEscape]
  constructor
  · intro h
    split at h
    next hclosed =>
      obtain ⟨hpos, hbrace⟩ := hclosed
      obtain ⟨rest, hrest⟩ := List.head?_eq_some_iff.1 hbrace
      refine ⟨text.takeWhile isHexDigit, rest, ?_, List.length_pos_iff.1 hpos, ?_⟩
      · rw [← hrest, ← take_runLength, List.take_append_drop]
      · exact fun c hc => List.all_eq_true.1 List.all_takeWhile c hc
    next => cases h
  · rintro ⟨digits, rest, rfl, hne, hdigits⟩
    have hrun : runLength isHexDigit (digits ++ '}' :: rest) = digits.length := by
      rw [runLength, List.takeWhile_append_of_pos hdigits,
        List.takeWhile_cons_of_neg (by decide), List.append_nil]
    rw [hrun, List.drop_left, if_pos ⟨List.length_pos_iff.2 hne, rfl⟩]

/-- An escape passes its check exactly if it is well formed. -/
theorem escape_eq_true_iff {text : Text} (h : text ≠ []) :
    (escape text).2 = true ↔ IsWellFormed text := by
  obtain ⟨c, rest, rfl⟩ := List.exists_cons_of_ne_nil h
  constructor
  · intro hpasses
    simp only [escape] at hpasses
    split at hpasses
    next hx =>
      obtain ⟨digits, rest, rfl, hlength, hdigits⟩ := hexWidth_eq_iff.1 (beq_iff_eq.1 hpasses)
      exact hx ▸ .byte hlength hdigits
    split at hpasses
    next hu =>
      split at hpasses
      next hbrace =>
        obtain ⟨tail, rfl⟩ := List.head?_eq_some_iff.1 hbrace
        obtain ⟨digits, rest, htail, hne, hdigits⟩ := bracedEscape_eq_true_iff.1 hpasses
        obtain rfl : tail = digits ++ '}' :: rest := htail
        exact hu ▸ .braced hne hdigits
      next =>
        obtain ⟨digits, rest, rfl, hlength, hdigits⟩ := hexWidth_eq_iff.1 (beq_iff_eq.1 hpasses)
        exact hu ▸ .unit hlength hdigits
    next hx hu => exact .other hx hu
  · intro hformed
    cases hformed with
    | @byte digits rest hlength hdigits =>
      have hwidth : hexWidth 2 (digits ++ rest) = 2 :=
        hexWidth_eq_iff.2 ⟨_, _, rfl, hlength, hdigits⟩
      simp [escape, hwidth]
    | @unit digits rest hlength hdigits =>
      have hwidth : hexWidth 4 (digits ++ rest) = 4 :=
        hexWidth_eq_iff.2 ⟨_, _, rfl, hlength, hdigits⟩
      -- A brace is no digit.
      have hbrace : (digits ++ rest).head? ≠ some '{' := by
        cases digits with
        | nil => cases hlength
        | cons d digits =>
          rintro ⟨⟩
          exact absurd (hdigits '{' List.mem_cons_self) (by decide)
      rw [escape, if_neg (by decide), if_pos rfl, if_neg hbrace, hwidth]
      rfl
    | @braced digits rest hne hdigits =>
      have hpasses : (bracedEscape (digits ++ '}' :: rest)).2 = true :=
        bracedEscape_eq_true_iff.2 ⟨_, _, rfl, hne, hdigits⟩
      simp [escape, hpasses]
    | other hx hu =>
      simp only [escape, if_neg hx, if_neg hu]
      split <;> rfl

instance : DecidablePred IsWellFormed := fun text =>
  if h : text = [] then .isFalse (by rw [h]; rintro ⟨⟩)
  else decidable_of_iff _ (escape_eq_true_iff h)

/-- An escape takes something. -/
theorem escape_pos {text : Text} (h : text ≠ []) : 0 < (escape text).1 := by
  obtain ⟨c, rest, rfl⟩ := List.exists_cons_of_ne_nil h
  simp only [escape]
  split
  · omega
  split
  · split <;> simp only <;> omega
  split
  next hoctal => exact runLength_pos _ hoctal
  next => exact Nat.one_pos

/-- No digit matters. -/
theorem isMark_of_isHexDigit (c : Char) (h : isHexDigit c = true) : (!isMark c) = true := by
  rw [Bool.not_eq_true']
  refine Bool.eq_false_iff.2 fun hmark => ?_
  simp only [isMark, Bool.or_eq_true, beq_iff_eq] at hmark
  rcases hmark with (((rfl | rfl) | rfl) | rfl) | rfl <;> revert h <;> decide

/-- Octal digits are hexadecimal ones. -/
theorem isHexDigit_of_isOctalDigit (c : Char) (h : isOctalDigit c = true) :
    isHexDigit c = true := by
  simp only [isOctalDigit, Bool.and_eq_true, decide_eq_true_eq] at h
  have hnine : c ≤ '9' := Char.le_trans h.2 (by decide)
  simp only [isHexDigit, Char.isDigit, Bool.or_eq_true, Bool.and_eq_true, decide_eq_true_eq]
  exact .inl (.inl ⟨h.1, hnine⟩)

/-- A run among the first characters of a text is a stretch of any class that its test is within. -/
theorem isStretch_runLength_take {p q : Char → Bool} (hqp : ∀ c, q c = true → p c = true)
    (count : Nat) (text : Text) : IsStretch p text (runLength q (text.take count)) := by
  have hle := runLength_le q (text.take count)
  rw [List.length_take] at hle
  have htake : text.take (runLength q (text.take count)) =
      (text.take count).take (runLength q (text.take count)) := by
    rw [List.take_take, Nat.min_eq_left (by omega)]
  unfold IsStretch
  rw [htake]
  exact isStretch_runLength hqp (text.take count)

/-- Behind its first character an escape holds nothing that matters. -/
theorem escape_tail (text : Text) : ∀ c ∈ (text.take (escape text).1).tail, isMark c = false := by
  suffices h : ∀ c rest, IsStretch (fun c => !isMark c) rest ((escape (c :: rest)).1 - 1) by
    cases text with
    | nil => simp
    | cons c rest =>
      intro d hd
      have hpos := escape_pos (List.cons_ne_nil c rest)
      rw [← Nat.sub_add_cancel hpos, List.take_succ_cons, List.tail_cons] at hd
      simpa using h c rest d hd
  intro c rest
  simp only [escape]
  split
  · rw [Nat.add_sub_cancel_left]
    exact isStretch_runLength_take isMark_of_isHexDigit 2 rest
  split
  · split
    next hbrace =>
      obtain ⟨tail, rfl⟩ := List.head?_eq_some_iff.1 hbrace
      have hdigits : IsStretch (fun c => !isMark c) tail (runLength isHexDigit tail) :=
        isStretch_runLength isMark_of_isHexDigit tail
      have hbraced : IsStretch (fun c => !isMark c) tail (bracedEscape tail).1 := by
        simp only [bracedEscape]
        split
        next h => exact hdigits.add (isStretch_one h.2 (by decide))
        next => exact hdigits
      have hwidth : 2 + (bracedEscape tail).1 - 1 = (bracedEscape tail).1 + 1 := by omega
      simpa only [List.drop_succ_cons, List.drop_zero, hwidth] using
        hbraced.cons (c := '{') (by decide)
    next =>
      rw [Nat.add_sub_cancel_left]
      exact isStretch_runLength_take isMark_of_isHexDigit 4 rest
  split
  next hoctal =>
    have hclass : ∀ c, isOctalDigit c = true → (!isMark c) = true :=
      fun c hc => isMark_of_isHexDigit c (isHexDigit_of_isOctalDigit c hc)
    -- The first of the digits is not in the tail, so at most two are.
    have hrun : runLength isOctalDigit ((c :: rest).take 3) - 1 =
        runLength isOctalDigit (rest.take 2) := by
      simp [runLength, hoctal]
    rw [hrun]
    exact isStretch_runLength_take hclass 2 rest
  next => exact isStretch_zero _ rest

/-- A backslash that does not end the line is a unit together with its escape. -/
theorem isUnit_escape {rest : Text} (h : rest ≠ []) :
    IsUnit ('\\' :: rest) (1 + (escape rest).1) :=
  isUnit_backslash (escape_pos h) (escape_le rest) (escape_tail rest)

/-- What is left behind an escape is left behind its backslash. -/
theorem drop_escape (rest : Text) :
    ('\\' :: rest).drop (1 + (escape rest).1) = rest.drop (escape rest).1 := by
  rw [Nat.add_comm, List.drop_succ_cons]

/-- Every backslash among the first characters of a text that is not escaped, and does not end the
text, has a well-formed escape behind it. -/
def HasEscapes (text : Text) (width : Nat) : Prop :=
  ∀ place ∈ bare '\\' text, place < width → place + 1 < text.length →
    IsWellFormed (text.drop (place + 1))

instance (text : Text) : DecidablePred (HasEscapes text) := fun width =>
  decidable_of_iff (∀ place < width, place ∈ bare '\\' text → place + 1 < text.length →
    IsWellFormed (text.drop (place + 1)))
    ⟨fun h place hplace hlt => h place hlt hplace, fun h place hlt hplace => h place hplace hlt⟩

/-- The escapes of a text are those behind a unit and the one that the unit may be. -/
theorem hasEscapes_add_iff {text : Text} {width : Nat} (h : IsUnit text width) (more : Nat) :
    HasEscapes text (width + more) ↔
      (text.head? = some '\\' → 1 < text.length → IsWellFormed (text.drop 1)) ∧
        HasEscapes (text.drop width) more := by
  have hpos := h.pos
  constructor
  · intro hall
    refine ⟨fun hhead hlt => ?_, fun inner hinner hlt hlength => ?_⟩
    · exact hall 0 ((mem_bare_iff h (by decide)).2 (.inl ⟨rfl, hhead⟩)) (by omega) hlt
    · rw [List.length_drop] at hlength
      have hplace : width + inner ∈ bare '\\' text :=
        (mem_bare_iff h (by decide)).2 (.inr ⟨inner, hinner, rfl⟩)
      rw [List.drop_drop]
      exact hall (width + inner) hplace (by omega) (by omega)
  · rintro ⟨hfirst, hall⟩ place hplace hlt hlength
    rcases (mem_bare_iff h (by decide)).1 hplace with ⟨rfl, hhead⟩ | ⟨inner, hinner, rfl⟩
    · exact hfirst hhead hlength
    · have hformed := hall inner hinner (by omega) (by rw [List.length_drop]; omega)
      rwa [List.drop_drop] at hformed

end Script

end LineLexer
