import LineLexer.Grammar.Script.Regex
import LineLexer.Proofs.Literal.Escape

/-!
# Where patterns end

The pattern of a regular expression ends at the first slash that is neither escaped nor in a
character class. What a class is can be told from the brackets alone: a place is in one if an
opening bracket stands before it with no closing one between, brackets that a backslash escapes
aside (`InClass`). The search for the slash goes from unit to unit and carries whether it is in a
class, so a search that starts within one has the first closing bracket to find as well
(`InClassFrom`). What a unit does to that is one lemma (`inClassFrom_add_iff`), and the search finds
the first closing slash or says that there is none (`isThroughFirst_patternWidth?`).
-/

namespace LineLexer.Script

/-- A place of a pattern is in a character class: behind an opening bracket, with no closing one
between the two. -/
def InClass (pattern : Text) (place : Nat) : Prop :=
  ∃ opening < place, opening ∈ bare '[' pattern ∧
    ∀ closing < place, closing ∈ bare ']' pattern → closing < opening

instance (pattern : Text) (place : Nat) : Decidable (InClass pattern place) :=
  inferInstanceAs (Decidable (∃ opening < place, opening ∈ bare '[' pattern ∧
    ∀ closing < place, closing ∈ bare ']' pattern → closing < opening))

/-- The slashes that a pattern may end with, the first of which it does. -/
def closingSlashes (pattern : Text) : Set Nat :=
  {place | place ∈ bare '/' pattern ∧ ¬InClass pattern place}

instance (pattern : Text) : DecidablePred (· ∈ closingSlashes pattern) :=
  fun place => inferInstanceAs (Decidable (place ∈ bare '/' pattern ∧ ¬InClass pattern place))

/-! ## Searches that start within a class -/

/-- A place of a text is in a class, given whether the start is. -/
def InClassFrom (inClass : Bool) (text : Text) (place : Nat) : Prop :=
  InClass text place ∨ inClass = true ∧ ∀ closing < place, closing ∉ bare ']' text

/-- The slashes that a search finds, given whether it starts in a class. -/
def slashesFrom (inClass : Bool) (text : Text) : Set Nat :=
  {place | place ∈ bare '/' text ∧ ¬InClassFrom inClass text place}

/-- A search that starts outside of a class finds closing slashes. -/
theorem slashesFrom_false (text : Text) : slashesFrom false text = closingSlashes text := by
  ext place
  simp [slashesFrom, closingSlashes, InClassFrom]

/-- The start of a text is in a class just if the search is. -/
@[simp] theorem inClassFrom_zero (inClass : Bool) (text : Text) :
    InClassFrom inClass text 0 ↔ inClass = true := by
  simp [InClassFrom, InClass]

section

variable {text : Text} {c : Char} {width : Nat}
  (hunit : IsUnit text width) (hhead : text.head? = some c)
  (hinner : ∀ place, 0 < place → place < width → ¬IsUnescaped text place)

include hunit hhead hinner

/-- The places of a character are the head and those behind a unit that escapes the rest of it. -/
theorem mem_bare_unit_iff (mark : Char) (place : Nat) :
    place ∈ bare mark text ↔ place = 0 ∧ c = mark ∨
      ∃ inner ∈ bare mark (text.drop width), place = width + inner := by
  rw [mem_bare_iff_of_inner hunit fun place hpos hlt _ => hinner place hpos hlt, hhead,
    Option.some_inj]

/-- No bracket closes a class up to a place if none does behind a unit, nor the unit. -/
theorem forall_notMem_closing_iff (place : Nat) :
    (∀ closing < width + place, closing ∉ bare ']' text) ↔
      c ≠ ']' ∧ ∀ closing < place, closing ∉ bare ']' (text.drop width) := by
  have hpos := hunit.pos
  constructor
  · intro hnone
    refine ⟨fun hc => ?_, fun closing hlt hmem => ?_⟩
    · exact hnone 0 (by omega) ((mem_bare_unit_iff hunit hhead hinner ']' 0).2 (.inl ⟨rfl, hc⟩))
    · exact hnone (width + closing) (by omega)
        ((mem_bare_unit_iff hunit hhead hinner ']' _).2 (.inr ⟨closing, hmem, rfl⟩))
  · rintro ⟨hc, hnone⟩ closing hlt hmem
    rcases (mem_bare_unit_iff hunit hhead hinner ']' closing).1 hmem with ⟨-, h⟩ | ⟨inner, h, rfl⟩
    · exact hc h
    · exact hnone inner (by omega) h

/-- A class that a place is in opens with the unit before, or behind it. -/
theorem inClass_add_iff (place : Nat) :
    InClass text (width + place) ↔ InClass (text.drop width) place ∨
      c = '[' ∧ ∀ closing < place, closing ∉ bare ']' (text.drop width) := by
  have hpos := hunit.pos
  have hplaces := mem_bare_unit_iff hunit hhead hinner
  constructor
  · rintro ⟨opening, hlt, hopening, hclosing⟩
    rcases (hplaces '[' opening).1 hopening with ⟨rfl, hc⟩ | ⟨inner, hinner, rfl⟩
    · -- The bracket is the head of the unit, so none behind it closes the class.
      refine .inr ⟨hc, fun closing hclt hmem => ?_⟩
      exact absurd (hclosing (width + closing) (by omega) ((hplaces ']' _).2
        (.inr ⟨closing, hmem, rfl⟩))) (Nat.not_lt_zero _)
    · refine .inl ⟨inner, by omega, hinner, fun closing hclt hmem => ?_⟩
      exact Nat.lt_of_add_lt_add_left (hclosing (width + closing) (by omega)
        ((hplaces ']' _).2 (.inr ⟨closing, hmem, rfl⟩)))
  · rintro (⟨opening, hlt, hopening, hclosing⟩ | ⟨rfl, hnone⟩)
    · refine ⟨width + opening, by omega, (hplaces '[' _).2 (.inr ⟨opening, hopening, rfl⟩), ?_⟩
      intro closing hclt hmem
      rcases (hplaces ']' closing).1 hmem with ⟨rfl, -⟩ | ⟨inner, hinner, rfl⟩
      · omega
      · have := hclosing inner (by omega) hinner
        omega
    · refine ⟨0, by omega, (hplaces '[' 0).2 (.inl ⟨rfl, rfl⟩), fun closing hclt hmem => ?_⟩
      have hall := (forall_notMem_closing_iff hunit hhead hinner place).2 ⟨by decide, hnone⟩
      exact absurd hmem (hall closing hclt)

/-- Behind a unit, a search is in a class as its head says: an opening bracket starts a class, a
closing one ends it, and any other character leaves what was. -/
theorem inClassFrom_add_iff (inClass : Bool) (place : Nat) :
    InClassFrom inClass text (width + place) ↔
      InClassFrom (c == '[' || (c != ']' && inClass)) (text.drop width) place := by
  unfold InClassFrom
  rw [inClass_add_iff hunit hhead hinner, forall_notMem_closing_iff hunit hhead hinner,
    Bool.or_eq_true, Bool.and_eq_true, beq_iff_eq, bne_iff_ne]
  tauto

/-- The slashes that a search finds are those behind a unit whose head is none of them. -/
theorem mem_slashesFrom_iff {inClass : Bool} (hslash : ¬(c = '/' ∧ inClass = false)) (place : Nat) :
    place ∈ slashesFrom inClass text ↔
      ∃ inner ∈ slashesFrom (c == '[' || (c != ']' && inClass)) (text.drop width),
        place = width + inner := by
  constructor
  · rintro ⟨hbare, hclass⟩
    rcases (mem_bare_unit_iff hunit hhead hinner '/' place).1 hbare with
      ⟨rfl, hc⟩ | ⟨inner, hmem, rfl⟩
    · rw [inClassFrom_zero, Bool.not_eq_true] at hclass
      exact absurd ⟨hc, hclass⟩ hslash
    · rw [inClassFrom_add_iff hunit hhead hinner] at hclass
      exact ⟨inner, ⟨hmem, hclass⟩, rfl⟩
  · rintro ⟨inner, ⟨hmem, hclass⟩, rfl⟩
    refine ⟨(mem_bare_unit_iff hunit hhead hinner '/' _).2 (.inr ⟨inner, hmem, rfl⟩), ?_⟩
    rwa [inClassFrom_add_iff hunit hhead hinner]

end

/-! ## The search -/

/-- The first slash that a search finds is the one that it measures through. -/
theorem isThroughFirst_slashesFrom (inClass : Bool) (text : Text) :
    IsThroughFirst (slashesFrom inClass text) (patternWidth? inClass text) := by
  -- A slash at the head of a search that is not in a class is the first.
  have hclose : ∀ rest, IsThroughFirst (slashesFrom false ('/' :: rest)) (some 1) := fun rest =>
    isThroughFirst_head ⟨⟨rfl, isUnescaped_zero _⟩, by simp⟩
  fun_induction patternWidth? inClass text with
  | case1 => simp [IsThroughFirst, slashesFrom, bare]
  | case2 inClass c h =>
    obtain ⟨rfl, rfl⟩ := h
    exact hclose []
  | case3 inClass c h =>
    refine Set.eq_empty_of_forall_notMem ?_
    rintro place ⟨⟨hchar, -⟩, hclass⟩
    obtain ⟨hplace, hc⟩ := List.getElem?_eq_some_iff.1 hchar
    obtain rfl : place = 0 := by simpa using hplace
    rw [inClassFrom_zero, Bool.not_eq_true] at hclass
    exact h ⟨by simpa using hc, hclass⟩
  | case4 inClass d rest ih =>
    -- A backslash and the character behind it are one unit.
    have hunit : IsUnit ('\\' :: d :: rest) (1 + 1) :=
      isUnit_backslash Nat.one_pos (by simp) (by simp)
    have hinner : ∀ place, 0 < place → place < 1 + 1 → ¬IsUnescaped ('\\' :: d :: rest) place := by
      intro place hpos hlt
      obtain rfl : place = 1 := by omega
      exact not_isUnescaped_one _
    have hfirst := ih.add (mem_slashesFrom_iff hunit rfl hinner (by simp))
    simpa only [Nat.add_comm] using hfirst
  | case5 inClass c d rest hescape h =>
    obtain ⟨rfl, rfl⟩ := h
    exact hclose _
  | case6 inClass c d rest hescape h ih =>
    have hinner : ∀ place, 0 < place → place < 1 → ¬IsUnescaped (c :: d :: rest) place :=
      fun place hpos hlt => absurd hlt (Nat.not_lt.2 hpos)
    have hfirst := ih.add (mem_slashesFrom_iff (isUnit_char hescape _) rfl hinner h)
    simpa only [Nat.add_comm] using hfirst

/-- A pattern is measured through its first closing slash. -/
theorem isThroughFirst_patternWidth? (pattern : Text) :
    IsThroughFirst (closingSlashes pattern) (patternWidth? false pattern) := by
  rw [← slashesFrom_false]
  exact isThroughFirst_slashesFrom false pattern

end LineLexer.Script
