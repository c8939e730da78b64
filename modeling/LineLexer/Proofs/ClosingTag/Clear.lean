import LineLexer.Proofs.Bytewise.Measure
import LineLexer.Proofs.ClosingTag
import LineLexer.Proofs.Text.Stretch

/-!
# Stretches without a closing tag

A grammar looks for the closing tag at the places where a piece may start, and ahead of comments. So
a piece of code holds no closing tag if none stands at its first character and if what follows that
character holds no opening bracket (`Clear.cons`, `clear_of_not_mem`): the runs and the numbers that
pieces are measured by are of other characters (`clear_of_isStretch`). A comment is cut off where
the first closing tag stands (`clear_commentWidth?`).
-/

namespace LineLexer

/-- No closing tag stands at any of the first characters of a text. -/
def Clear (language : Language) (text : Text) (width : Nat) : Prop :=
  ∀ i < width, ¬ClosesAt language (text.drop i)

/-- Only at a bracket may a closing tag stand. -/
theorem not_closesAt_of_ne {c : Char} (h : c ≠ '<') (language : Language) (rest : Text) :
    ¬ClosesAt language (c :: rest) := by
  intro hclose
  obtain ⟨tail, htail⟩ := hclose.eq_cons
  exact h (List.cons.inj htail).1

section

variable {language : Language}

/-- A stretch is clear if no closing tag stands at its first character and the rest is clear. -/
theorem Clear.cons {c : Char} {rest : Text} {width : Nat} (h : ¬ClosesAt language (c :: rest))
    (hrest : Clear language rest width) : Clear language (c :: rest) (width + 1) := by
  intro i hi
  cases i with
  | zero => exact h
  | succ i => exact hrest i (by omega)

/-- Nothing is clear. -/
theorem clear_zero (language : Language) (text : Text) : Clear language text 0 :=
  fun i hi => absurd hi (Nat.not_lt_zero i)

/-- Stretches that are clear join to one. -/
theorem Clear.add {text : Text} {first second : Nat} (h : Clear language text first)
    (hsecond : Clear language (text.drop first) second) : Clear language text (first + second) := by
  intro i hi
  by_cases hfirst : i < first
  · exact h i hfirst
  · have := hsecond (i - first) (by omega)
    rwa [List.drop_drop, Nat.add_sub_cancel' (by omega)] at this

/-- What holds no bracket is clear. -/
theorem clear_of_not_mem {text : Text} {width : Nat} (h : '<' ∉ text.take width) :
    Clear language text width := by
  intro i hi hclose
  obtain ⟨tail, htail⟩ := hclose.eq_cons
  have hget : (text.take width)[i]? = some '<' := by
    rw [List.getElem?_take_of_lt hi, ← List.head?_drop, htail]
    rfl
  exact h (List.mem_of_getElem? hget)

/-! ## Measures that go over no bracket -/

/-- One character other than the bracket is clear. -/
theorem clear_one {text : Text} {c : Char} (h : text.head? = some c) (hc : c ≠ '<') :
    Clear language text 1 := by
  obtain ⟨rest, rfl⟩ := List.head?_eq_some_iff.1 h
  exact (clear_zero language rest).cons (not_closesAt_of_ne hc language rest)

/-- A stretch of a class without the bracket is clear. -/
theorem clear_of_isStretch {p : Char → Bool} (hp : p '<' = false) {text : Text} {width : Nat}
    (h : IsStretch p text width) : Clear language text width := by
  apply clear_of_not_mem
  intro hmem
  rw [h '<' hmem] at hp
  cases hp

/-- A run is clear if brackets fail its test. -/
theorem clear_runLength {p : Char → Bool} (hp : p '<' = false) (text : Text) :
    Clear language text (runLength p text) :=
  clear_of_isStretch hp (isStretch_runLength (fun _ hc => hc) text)

/-! ## Comments -/

/-- Where a search finds its first place, the test fails at all places before, and where it finds
none, it fails everywhere. -/
theorem IsSearch.test_drop_eq_false {search : Text → Option Nat} {test : Text → Bool}
    (h : IsSearch search test) (hnil : test [] = false) {text : Text} {i : Nat}
    (hi : ∀ found ∈ search text, i < found) : test (text.drop i) = false := by
  induction text generalizing i with
  | nil => simpa using hnil
  | cons c rest ih =>
    rw [h.cons] at hi
    split at hi
    · exact absurd (hi 0 rfl) (Nat.not_lt_zero i)
    next htest =>
      cases i with
      | zero => simpa using htest
      | succ i =>
        exact ih fun found hfound =>
          Nat.lt_of_succ_lt_succ (hi (found + 1) (Option.mem_map_of_mem _ hfound))

/-- Where a search finds a place, the test holds. -/
theorem IsSearch.test_drop {search : Text → Option Nat} {test : Text → Bool}
    (h : IsSearch search test) {text : Text} {found : Nat} (hfound : search text = some found) :
    test (text.drop found) = true := by
  induction text generalizing found with
  | nil =>
    rw [h.nil] at hfound
    cases hfound
  | cons c rest ih =>
    rw [h.cons] at hfound
    split at hfound
    next htest =>
      cases hfound
      exact htest
    next =>
      obtain ⟨before, hbefore, rfl⟩ := Option.map_eq_some_iff.1 hfound
      exact ih hbefore

/-- Before the first closing tag there is none. -/
theorem not_closesAt_of_closingTagIndex? {text : Text} {i : Nat}
    (hi : ∀ index ∈ closingTagIndex? language.closingTag text, i < index) :
    ¬ClosesAt language (text.drop i) := by
  intro hclose
  have htest := (isSearch_closingTagIndex? language.closingTag).test_drop_eq_false
    (by simp) hi
  obtain ⟨rest, hrest⟩ := hclose.eq_cons
  rw [atClosingTag_iff.2 hclose, hrest] at htest
  simp at htest

/-- No closing tag is found just if there is none. -/
theorem closingTagIndex?_eq_none_iff {text : Text} :
    closingTagIndex? language.closingTag text = none ↔ ∀ i, ¬ClosesAt language (text.drop i) := by
  constructor
  · intro hnone i
    exact not_closesAt_of_closingTagIndex? (by simp [hnone])
  · intro h
    refine Option.eq_none_iff_forall_ne_some.2 fun found hfound => h found ?_
    have htest := (isSearch_closingTagIndex? language.closingTag).test_drop hfound
    exact atClosingTag_iff.1 (Bool.and_eq_true_iff.1 htest).2

/-- The text through the end of a comment is clear. -/
theorem clear_commentWidth? {body : Text} {width : Nat}
    (h : commentWidth? language.closingTag body = some width) : Clear language body width := by
  -- The delimiter holds no bracket.
  have hdelimiter : ∀ {delimiter}, indexOf? "*/".toList body = some delimiter →
      Clear language (body.drop delimiter) 2 := by
    intro delimiter hd
    obtain ⟨rest, hrest⟩ := prefix_drop_of_indexOf? hd
    rw [← hrest]
    exact clear_of_not_mem (by simp)
  unfold commentWidth? at h
  split at h
  next delimiter index hd ht =>
    have hbefore : Clear language body index :=
      fun i hi => not_closesAt_of_closingTagIndex? (by simpa [ht] using hi)
    split at h <;> cases h
    · exact hbefore
    next hle => exact Clear.add (fun i hi => hbefore i (by omega)) (hdelimiter hd)
  next delimiter hd ht =>
    cases h
    exact fun i _ => not_closesAt_of_closingTagIndex? (by simp [ht])
  next index hd ht =>
    cases h
    exact fun i hi => not_closesAt_of_closingTagIndex? (by simpa [ht] using hi)
  · cases h

/-- The text of a comment that stays open is clear. -/
theorem clear_of_commentWidth?_eq_none {body : Text}
    (h : commentWidth? language.closingTag body = none) (width : Nat) :
    Clear language body width := by
  intro i _
  apply not_closesAt_of_closingTagIndex?
  unfold commentWidth? at h
  split at h
  · cases h
  · cases h
  · cases h
  next htag => simp [htag]

/-- At a closing tag, no text of a comment is left. -/
theorem commentWidth?_of_closesAt {text : Text} (h : ClosesAt language text) :
    commentWidth? language.closingTag text = some 0 := by
  have htag := atClosingTag_iff.2 h
  obtain ⟨rest, rfl⟩ := h.eq_cons
  have hindex : closingTagIndex? language.closingTag ('<' :: '/' :: rest) = some 0 := by
    rw [closingTagIndex?, htag]
    rfl
  unfold commentWidth?
  rw [hindex]
  cases hdelimiter : indexOf? "*/".toList ('<' :: '/' :: rest) with
  | none => rfl
  | some delimiter =>
    -- The delimiter does not stand where the tag does.
    have hpos : 0 < delimiter := by
      rw [Nat.pos_iff_ne_zero]
      rintro rfl
      simpa using prefix_drop_of_indexOf? hdelimiter
    simp only [if_pos hpos]

/-! ## Pieces -/

/-- Where the test for a closing tag fails, there is none. -/
theorem not_closesAt_of_test {c : Char} {rest : Text}
    (h : ¬(c = '<' && atClosingTag language.closingTag (c :: rest)) = true) :
    ¬ClosesAt language (c :: rest) := by
  intro hclose
  obtain ⟨tail, htail⟩ := hclose.eq_cons
  exact h (Bool.and_eq_true_iff.2
    ⟨decide_eq_true (List.cons.inj htail).1, atClosingTag_iff.2 hclose⟩)

/-- The closing tag itself is markup. -/
theorem heeds_closeElement (hl : language ≠ .markup) (hides : Span → Nat → Prop) (tag text : Text) :
    Heeds language hides text (carve (closeElement tag).pieces text) := by
  have hmarkup : (closeElement tag).IsOf .markup := ⟨by simp [closeElement]⟩
  refine heeds_of_language fun span hspan => ?_
  rw [hmarkup.language_of_mem_carve hspan]
  exact hl.symm

/-- One piece that is clear heeds the closing tag. -/
theorem heeds_of_clear {hides : Span → Nat → Prop} {piece : Piece} {text : Text}
    (h : Clear language text piece.width) : Heeds language hides text (carve [piece] text) :=
  heeds_carve_singleton fun i hi hclose => absurd hclose (h i hi)

end

end LineLexer
