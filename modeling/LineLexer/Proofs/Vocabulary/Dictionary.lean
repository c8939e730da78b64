import LineLexer.Proofs.Text.LetterCase
import LineLexer.Vocabulary.Elements
import LineLexer.Vocabulary.StyleNames
import Mathlib.Data.List.Chain

/-!
# Names in sorted tables

Halving a sorted table finds what reading it through would find (`Dictionary.find?_eq_lookup`). The
comparison folds the letter case of the name only, and under it a name comes before or after an
entry just as its small letters do in the order of lists (`compareFolded_eq_lt_iff`,
`compareFolded_eq_gt_iff`). So the half that is left out holds no entry of the name
(`Dictionary.findBetween?_eq_some_iff`).
-/

namespace LineLexer

/-! ## The order of names -/

/-- A character comes before another as its code point does. -/
theorem char_lt_iff {c d : Char} : c < d ↔ c.toNat < d.toNat := by
  rw [Char.lt_def, UInt32.lt_iff_toNat_lt]
  rfl

/-- An entry is found equal to the name in small letters. -/
theorem compareFolded_eq_eq_iff {entry name : Text} :
    compareFolded entry name = .eq ↔ entry = foldCase name := by
  induction entry generalizing name with
  | nil => cases name <;> simp [compareFolded, foldCase]
  | cons a entry ih =>
    cases name with
    | nil => simp [compareFolded, foldCase]
    | cons b name =>
      rw [compareFolded, foldCase_cons, List.cons.injEq, ← Char.toNat_inj, ← ih]
      split
      · simp; omega
      split
      · simp; omega
      · rw [and_iff_right]
        omega

/-- An entry is found to be before a name if it is before the name in small letters. -/
theorem compareFolded_eq_lt_iff {entry name : Text} :
    compareFolded entry name = .lt ↔ entry < foldCase name := by
  induction entry generalizing name with
  | nil => cases name <;> simp [compareFolded, foldCase]
  | cons a entry ih =>
    cases name with
    | nil => simp [compareFolded, foldCase]
    | cons b name =>
      rw [compareFolded, foldCase_cons, List.cons_lt_cons_iff, char_lt_iff, ← Char.toNat_inj, ← ih]
      split
      · simp_all
      split
      · simp; omega
      · rw [or_iff_right (by omega), and_iff_right (by omega)]

/-- An entry is found to be behind a name if it is behind the name in small letters. -/
theorem compareFolded_eq_gt_iff {entry name : Text} :
    compareFolded entry name = .gt ↔ foldCase name < entry := by
  induction entry generalizing name with
  | nil => cases name <;> simp [compareFolded, foldCase]
  | cons a entry ih =>
    cases name with
    | nil => simp [compareFolded, foldCase]
    | cons b name =>
      rw [compareFolded, foldCase_cons, List.cons_lt_cons_iff, char_lt_iff, ← Char.toNat_inj, ← ih]
      split
      · simp; omega
      split
      · simp_all
      · rw [or_iff_right (by omega), and_iff_right (by omega)]

/-! ## Sorted tables -/

namespace Dictionary

/-- A table is sorted if each of its names comes before those behind it. -/
def IsSorted {α : Type} (dictionary : Dictionary α) : Prop :=
  dictionary.entries.toList.Pairwise fun a b => a.1 < b.1

section

variable {α : Type} {dictionary : Dictionary α}

/-- A table is sorted if each of its names comes before the next one. -/
theorem isSorted_of_isChain (h : dictionary.entries.toList.IsChain fun a b => a.1 < b.1) :
    dictionary.IsSorted := by
  have hnames : (dictionary.entries.toList.map Prod.fst).Pairwise (· < ·) :=
    ((List.isChain_map _).2 h).pairwise
  exact List.pairwise_map.1 hnames

/-- In a sorted table the names go up with the places. -/
theorem IsSorted.name_lt (h : dictionary.IsSorted) {i j : Nat} {a b : Text × α}
    (hi : dictionary.entries[i]? = some a) (hj : dictionary.entries[j]? = some b) (hlt : i < j) :
    a.1 < b.1 := by
  rw [← Array.getElem?_toList] at hi hj
  obtain ⟨hfirst, rfl⟩ := List.getElem?_eq_some_iff.1 hi
  obtain ⟨hsecond, rfl⟩ := List.getElem?_eq_some_iff.1 hj
  exact List.pairwise_iff_getElem.1 h i j hfirst hsecond hlt

/-- In a sorted table, a name that comes before another stands before it. -/
theorem IsSorted.lt_of_name_lt (h : dictionary.IsSorted) {i j : Nat} {a b : Text × α}
    (hi : dictionary.entries[i]? = some a) (hj : dictionary.entries[j]? = some b)
    (hlt : a.1 < b.1) : i < j := by
  rcases Nat.lt_trichotomy i j with hij | rfl | hji
  · exact hij
  · rw [Option.some.inj (hi.symm.trans hj)] at hlt
    exact absurd hlt (List.lt_irrefl _)
  · exact absurd (h.name_lt hj hi hji) (List.lt_asymm hlt)

/-- In a sorted table each name stands in one place. -/
theorem IsSorted.eq_of_name_eq (h : dictionary.IsSorted) {i j : Nat} {a b : Text × α}
    (hi : dictionary.entries[i]? = some a) (hj : dictionary.entries[j]? = some b)
    (heq : a.1 = b.1) : i = j := by
  rcases Nat.lt_trichotomy i j with hij | hij | hji
  · have hlt := h.name_lt hi hj hij
    rw [heq] at hlt
    exact absurd hlt (List.lt_irrefl _)
  · exact hij
  · have hlt := h.name_lt hj hi hji
    rw [heq] at hlt
    exact absurd hlt (List.lt_irrefl _)

/-- Between two places of a sorted table, the entry of a name is found if there is one. -/
theorem findBetween?_eq_some_iff (h : dictionary.IsSorted) (name : Text) {low high : Nat}
    (hhigh : high ≤ dictionary.entries.size) (value : α) :
    dictionary.findBetween? name low high = some value ↔
      ∃ i, low ≤ i ∧ i < high ∧ dictionary.entries[i]? = some (foldCase name, value) := by
  fun_induction findBetween? dictionary name low high with
  | case1 low high hlt hnone =>
    have hmid : (low + high) / 2 < dictionary.entries.size := by omega
    rw [Array.getElem?_eq_getElem hmid] at hnone
    cases hnone
  | case2 low high hlt entry found hentry heq =>
    rw [compareFolded_eq_eq_iff.1 heq] at hentry
    constructor
    · intro hfound
      rw [← Option.some.inj hfound]
      exact ⟨_, by omega, by omega, hentry⟩
    · rintro ⟨i, -, -, hi⟩
      rw [h.eq_of_name_eq hi hentry rfl, hentry] at hi
      simpa using hi
  | case3 low high hlt entry found hentry hbefore ih =>
    -- The entry in the middle is before the name, so all up to it are.
    rw [ih hhigh]
    constructor
    · rintro ⟨i, hlow, hi⟩
      exact ⟨i, by omega, hi⟩
    · rintro ⟨i, hlow, hlt', hi⟩
      have := h.lt_of_name_lt hentry hi (compareFolded_eq_lt_iff.1 hbefore)
      exact ⟨i, by omega, hlt', hi⟩
  | case4 low high hlt entry found hentry hafter ih =>
    -- The entry in the middle is after the name, so all from it on are.
    rw [ih (by omega)]
    constructor
    · rintro ⟨i, hlow, hlt', hi⟩
      exact ⟨i, hlow, by omega, hi⟩
    · rintro ⟨i, hlow, hlt', hi⟩
      have := h.lt_of_name_lt hi hentry (compareFolded_eq_gt_iff.1 hafter)
      exact ⟨i, hlow, this, hi⟩
  | case5 low high hlt =>
    constructor
    · intro h
      cases h
    · rintro ⟨i, hlow, hhigh, -⟩
      omega

/-- In a sorted table a name has the value that is found by reading the table through. -/
theorem find?_eq_lookup (h : dictionary.IsSorted) (name : Text) :
    dictionary.find? name = dictionary.entries.toList.lookup (foldCase name) := by
  refine Option.ext fun value => ?_
  rw [find?, findBetween?_eq_some_iff h name (Nat.le_refl _), List.lookup_eq_some_iff]
  constructor
  · rintro ⟨i, -, -, hi⟩
    rw [← Array.getElem?_toList] at hi
    obtain ⟨front, back, htable⟩ := List.append_of_mem (List.mem_of_getElem? hi)
    refine ⟨front, back, htable, fun entry hentry => ?_⟩
    -- The entries before it have names that come before.
    have hsorted := h
    rw [IsSorted, htable, List.pairwise_append] at hsorted
    have hlt := hsorted.2.2 entry hentry _ List.mem_cons_self
    simp only [bne_iff_ne]
    rintro heq
    rw [heq] at hlt
    exact absurd hlt (List.lt_irrefl _)
  · rintro ⟨front, back, htable, -⟩
    have hi : dictionary.entries[front.length]? = some (foldCase name, value) := by
      rw [← Array.getElem?_toList, htable, List.getElem?_append_right (Nat.le_refl _), Nat.sub_self]
      rfl
    exact ⟨_, Nat.zero_le _, (Array.getElem?_eq_some_iff.1 hi).1, hi⟩

end

/-- A sorted dictionary of names with values has the value that is found by reading them through. -/
theorem find?_ofList {α : Type} {entries : List (String × α)} (h : (ofList entries).IsSorted)
    (name : Text) : (ofList entries).find? name =
      (entries.map fun entry => (entry.1.toList, entry.2)).lookup (foldCase name) :=
  find?_eq_lookup h name

/-- A sorted dictionary of names with values has one for each of its names, in any letter case. -/
theorem isSome_find?_ofList {α : Type} {entries : List (String × α)} (h : (ofList entries).IsSorted)
    (name : Text) : ((ofList entries).find? name).isSome = true ↔
      foldCase name ∈ entries.map fun entry => entry.1.toList := by
  rw [find?_ofList h, List.lookup_isSome_iff]
  simp only [List.mem_map, beq_iff_eq]
  constructor
  · rintro ⟨_, ⟨entry, hentry, rfl⟩, hname⟩
    exact ⟨entry, hentry, hname.symm⟩
  · rintro ⟨entry, hentry, hname⟩
    exact ⟨_, ⟨entry, hentry, rfl⟩, hname.symm⟩

/-- A sorted dictionary holds the names that it is made of, in any letter case. -/
theorem contains_ofNames {names : List String} (h : (ofNames names).IsSorted) (name : Text) :
    (ofNames names).contains name = true ↔ foldCase name ∈ names.map String.toList := by
  have hlist : ofNames names = ofList (names.map fun entry => (entry, ())) := by
    simp [ofNames, ofList]
  rw [hlist] at h ⊢
  rw [contains, isSome_find?_ofList h]
  simp

end Dictionary

/-! ## The tables of the vocabulary -/

/-- The dictionary of elements holds the names of the table, in any letter case. -/
theorem contains_elements_iff (name : Text) :
    elements.contains name = true ↔ foldCase name ∈ elementNames.map String.toList :=
  Dictionary.contains_ofNames (Dictionary.isSorted_of_isChain (by decide +kernel)) name

namespace Style

/-- The dictionary of pseudo-classes and pseudo-elements holds the names of the table, in any letter
case. -/
theorem contains_pseudos_iff (name : Text) :
    pseudos.contains name = true ↔ foldCase name ∈ pseudoNames.map String.toList :=
  Dictionary.contains_ofNames (Dictionary.isSorted_of_isChain (by decide)) name

/-- The dictionary of units holds the letters that make up a unit, in any letter case. -/
theorem contains_units_iff (letters : Text) :
    units.contains letters = true ↔ foldCase letters ∈ unitNames.map String.toList :=
  Dictionary.contains_ofNames (Dictionary.isSorted_of_isChain (by decide)) letters

/-- The dictionary of at-rules is sorted. -/
theorem isSorted_atRules : atRules.IsSorted :=
  Dictionary.isSorted_of_isChain (by decide)

/-- The dictionary of at-rules holds the names of the table, in any letter case. -/
theorem isSome_find?_atRules_iff (name : Text) : (atRules.find? name).isSome = true ↔
    foldCase name ∈ atRuleBodies.map fun entry => entry.1.toList :=
  Dictionary.isSome_find?_ofList isSorted_atRules name

/-- What the block of an at-rule holds, by its name in any letter case; of an unknown one, rules. -/
def bodyOfName (name : Text) : AtRuleBody :=
  ((atRuleBodies.map fun entry => (entry.1.toList, entry.2)).lookup (foldCase name)).getD .rules

/-- The dictionary of at-rules has the bodies of the table. -/
theorem getD_find?_atRules (name : Text) : (atRules.find? name).getD .rules = bodyOfName name := by
  rw [bodyOfName, ← Dictionary.find?_ofList isSorted_atRules, atRules]

end Style

end LineLexer
