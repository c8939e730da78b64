import LineLexer.Text.Search
import Mathlib.Data.List.Infix
import Mathlib.Order.Bounds.Image

/-!
# Where a text is found

A search finds nothing in a text that does not hold the needle, and otherwise the first place where
it stands (`indexOf?_append`).

`FindsLeast found places` says of the answer of any search that it is the least of the places looked
for. Only one answer is (`FindsLeast.unique`), so two searches for the same places agree.
-/

namespace LineLexer

variable {needle text : Text}

/-- A needle that a text does not hold is not found in it. -/
theorem indexOf?_eq_none (h : ¬needle <:+: text) : indexOf? needle text = none := by
  induction text with
  | nil =>
    have hne : needle.isEmpty = false := by
      rw [Bool.eq_false_iff, Ne, List.isEmpty_iff]
      rintro rfl
      exact h List.nil_infix
    rw [indexOf?, hne]
    rfl
  | cons c text ih =>
    have hnot : needle.isPrefixOf (c :: text) = false :=
      Bool.eq_false_iff.2 fun hstarts => h (List.isPrefixOf_iff_prefix.1 hstarts).isInfix
    have hrest : ¬needle <:+: text := fun hheld => h (hheld.trans (List.suffix_cons c text).isInfix)
    rw [indexOf?, hnot, ih hrest]
    rfl

/-- A needle behind a text is found there if it stands at no place before. -/
theorem indexOf?_append (rest : Text)
    (h : ∀ place < text.length, ¬needle <+: (text ++ (needle ++ rest)).drop place) :
    indexOf? needle (text ++ (needle ++ rest)) = some text.length := by
  induction text with
  | nil =>
    cases needle with
    | nil => cases rest <;> rfl
    | cons c needle => simp [indexOf?]
  | cons c text ih =>
    have hnot : needle.isPrefixOf (c :: (text ++ (needle ++ rest))) = false :=
      Bool.eq_false_iff.2 fun hstarts => h 0 (Nat.succ_pos _) (List.isPrefixOf_iff_prefix.1 hstarts)
    have hrest := ih fun place hplace => h (place + 1) (Nat.succ_lt_succ hplace)
    rw [List.cons_append, indexOf?, hnot, hrest]
    rfl

/-! ## The least of the places looked for -/

/-- A search over some places finds the least of them, and none if there are none. -/
structure FindsLeast (found : Option Nat) (places : Set Nat) : Prop where
  eq_some_iff : ∀ place, found = some place ↔ IsLeast places place
  eq_none_iff : found = none ↔ places = ∅

section

variable {found other : Option Nat} {places : Set Nat}

/-- What is found is the least place, and without a find there is none. -/
theorem FindsLeast.of_forall (hsome : ∀ place, found = some place → IsLeast places place)
    (hnone : found = none → places = ∅) : FindsLeast found places where
  eq_some_iff place := by
    refine ⟨hsome place, fun hleast => ?_⟩
    cases found with
    | none =>
      have hmem := hleast.1
      rw [hnone rfl] at hmem
      exact hmem.elim
    | some first => rw [(hsome first rfl).unique hleast]
  eq_none_iff := by
    refine ⟨hnone, fun hempty => ?_⟩
    cases found with
    | none => rfl
    | some first =>
      have hmem := (hsome first rfl).1
      rw [hempty] at hmem
      exact hmem.elim

/-- If the start is among the places, it is the least. -/
theorem FindsLeast.zero (h : 0 ∈ places) : FindsLeast (some 0) places := by
  apply FindsLeast.of_forall
  · intro place hplace
    cases hplace
    exact ⟨h, fun other _ => Nat.zero_le other⟩
  · intro hnone
    cases hnone

/-- There is one answer that a search over some places can give. -/
theorem FindsLeast.unique (h : FindsLeast found places) (hother : FindsLeast other places) :
    found = other := by
  cases hf : found with
  | none => exact (hother.eq_none_iff.2 (h.eq_none_iff.1 hf)).symm
  | some place => exact ((hother.eq_some_iff place).2 ((h.eq_some_iff place).1 hf)).symm

/-- Measured in a way that keeps the order, the place that is found is the least of all of them so
measured. -/
theorem FindsLeast.image {measure : Nat → Nat} (hmono : Monotone measure)
    (h : FindsLeast found places) : FindsLeast (found.map measure) (measure '' places) := by
  apply FindsLeast.of_forall
  · intro place hplace
    obtain ⟨first, hfirst, rfl⟩ := Option.map_eq_some_iff.1 hplace
    exact hmono.map_isLeast ((h.eq_some_iff first).1 hfirst)
  · intro hnone
    rw [h.eq_none_iff.1 (Option.map_eq_none_iff.1 hnone), Set.image_empty]

/-- Going through the places below a bound one by one finds the first that passes a test. -/
theorem findsLeast_find?_range (bound : Nat) (test : Nat → Bool) :
    FindsLeast ((List.range bound).find? test) {place | place < bound ∧ test place = true} := by
  apply FindsLeast.of_forall
  · intro place hplace
    obtain ⟨htest, hmem, hbefore⟩ := List.find?_range_eq_some.1 hplace
    refine ⟨⟨List.mem_range.1 hmem, htest⟩, ?_⟩
    rintro other ⟨-, hother⟩
    by_contra hlt
    have hfails := hbefore other (Nat.lt_of_not_le hlt)
    rw [hother] at hfails
    cases hfails
  · intro hnone
    rw [Set.eq_empty_iff_forall_notMem]
    rintro place ⟨hlt, htest⟩
    exact List.find?_eq_none.1 hnone place (List.mem_range.2 hlt) htest

end

end LineLexer
