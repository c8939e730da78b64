import LineLexer.Grammar.Markup.Entity
import LineLexer.Proofs.Number.Grammar

/-!
# Entity references

The grammar of entity references has three forms: by name, and by a decimal or a hexadecimal code
point. The reference that is measured at an ampersand is the longest one that the text starts with
(`entityWidth?_eq_some_iff`).
-/

namespace LineLexer.Markup

open Grammar

/-- Digits of a class with a semicolon, which may be missing: `D+;?`. -/
def codePoint (p : Char → Bool) : Grammar :=
  seq (many1 p) (opt (oneOf [';']))

/-- References by name: `&[A-Za-z][A-Za-z0-9]*;`. -/
def namedEntity : Grammar :=
  seq (oneOf ['&']) (seq (single Char.isAlpha) (seq (many Char.isAlphanum) (oneOf [';'])))

/-- References by a decimal code point: `&#D+;?`. -/
def decimalEntity : Grammar :=
  seq (oneOf ['&']) (seq (oneOf ['#']) (codePoint Char.isDigit))

/-- References by a hexadecimal code point: `&#[xX]H+;?`. -/
def hexEntity : Grammar :=
  seq (oneOf ['&']) (seq (oneOf ['#']) (seq (oneOf ['x', 'X']) (codePoint isHexDigit)))

/-- Entity references. -/
def entity : Grammar :=
  namedEntity ∪ decimalEntity ∪ hexEntity

/-! ## Forms of references -/

/-- A reference by name is a letter, letters and digits, and a semicolon. -/
theorem mem_namedEntity_iff {text : Text} : text ∈ namedEntity ↔ ∃ c name,
    text = '&' :: c :: (name ++ [';']) ∧ c.isAlpha = true ∧ name ∈ many Char.isAlphanum := by
  simp only [namedEntity, mem_seq_oneOf_iff, List.mem_singleton, exists_eq_left]
  constructor
  · rintro ⟨_, ⟨_, ⟨c, hc, rfl⟩, _, ⟨name, hname, _, ⟨s, hs, rfl⟩, rfl⟩, rfl⟩, rfl⟩
    obtain rfl := List.mem_singleton.1 hs
    exact ⟨c, name, rfl, hc, hname⟩
  · rintro ⟨c, name, rfl, hc, hname⟩
    exact ⟨_, ⟨[c], ⟨c, hc, rfl⟩, _, ⟨name, hname, [';'], ⟨';', by simp, rfl⟩, rfl⟩, rfl⟩, rfl⟩

/-- A reference by a decimal code point is that behind an ampersand and a hash sign. -/
theorem mem_decimalEntity_iff {text : Text} : text ∈ decimalEntity ↔ ∃ digits,
    text = '&' :: '#' :: digits ∧ digits ∈ codePoint Char.isDigit := by
  simp only [decimalEntity, mem_seq_oneOf_iff, List.mem_singleton, exists_eq_left]
  constructor
  · rintro ⟨_, ⟨digits, hdigits, rfl⟩, rfl⟩
    exact ⟨digits, rfl, hdigits⟩
  · rintro ⟨digits, rfl, hdigits⟩
    exact ⟨_, ⟨digits, hdigits, rfl⟩, rfl⟩

/-- A reference by a hexadecimal code point has a mark before it. -/
theorem mem_hexEntity_iff {text : Text} : text ∈ hexEntity ↔ ∃ x digits,
    text = '&' :: '#' :: x :: digits ∧ (x = 'x' ∨ x = 'X') ∧ digits ∈ codePoint isHexDigit := by
  simp only [hexEntity, mem_seq_oneOf_iff, List.mem_cons, List.not_mem_nil, or_false,
    exists_eq_left]
  constructor
  · rintro ⟨_, ⟨_, ⟨x, hx, digits, hdigits, rfl⟩, rfl⟩, rfl⟩
    exact ⟨x, digits, rfl, hx, hdigits⟩
  · rintro ⟨x, digits, rfl, hx, hdigits⟩
    exact ⟨_, ⟨_, ⟨x, hx, digits, hdigits, rfl⟩, rfl⟩, rfl⟩

/-! ## Measures -/

section

variable {p : Char → Bool} {lead width : Nat} {text rest : Text}

/-- What is measured as a code point is one. -/
theorem exists_codePoint (h : numericEntityWidth? p lead text = some width) :
    ∃ digits rest, text = digits ++ rest ∧ digits ∈ codePoint p ∧ lead + digits.length = width := by
  obtain ⟨digits, rest, rfl, hdigits, -, hrun⟩ := Script.exists_run p text
  simp only [numericEntityWidth?, hrun, List.drop_left] at h
  split at h
  · cases h
  next hne =>
    have hdigits : digits ∈ many1 p := ⟨fun hnil => hne (by rw [hnil]; rfl), hdigits⟩
    split at h <;> obtain rfl := Option.some.inj h
    next hsemicolon =>
      obtain ⟨rest, rfl⟩ := List.head?_eq_some_iff.1 hsemicolon
      exact ⟨digits ++ [';'], rest, by simp, ⟨digits, hdigits, _, .inr ⟨';', by simp, rfl⟩, rfl⟩,
        by simp [Nat.add_assoc]⟩
    next => exact ⟨digits, rest, rfl, ⟨digits, hdigits, [], .inl rfl, by simp⟩, rfl⟩

/-- A code point at the head of a text is measured, and no less than it. -/
theorem exists_numericEntityWidth (hp : p ';' = false) {digits : Text} (h : digits ∈ codePoint p)
    (lead : Nat) (rest : Text) : ∃ width,
      numericEntityWidth? p lead (digits ++ rest) = some width ∧ lead + digits.length ≤ width := by
  obtain ⟨digits, ⟨hne, hdigits⟩, _, rfl | ⟨c, hc, rfl⟩, rfl⟩ := h
  · have hle := Script.length_le_runLength hdigits rest
    have hpos := List.length_pos_iff.2 hne
    have hzero : runLength p (digits ++ rest) ≠ 0 := by omega
    simp only [List.append_nil, numericEntityWidth?, hzero, if_false]
    split
    · exact ⟨_, rfl, by omega⟩
    · exact ⟨_, rfl, by omega⟩
  · obtain rfl := List.mem_singleton.1 hc
    have hrun : runLength p (digits ++ ([';'] ++ rest)) = digits.length :=
      Script.runLength_append_of_head? hdigits (by simp [hp])
    have hzero : digits.length ≠ 0 := fun hnil => hne (List.length_eq_zero_iff.1 hnil)
    refine ⟨lead + digits.length + 1, ?_, by simp [Nat.add_assoc]⟩
    rw [List.append_assoc, numericEntityWidth?, hrun, if_neg hzero, List.drop_left]
    rfl

/-- What is measured as a name with a semicolon is a reference by that name. -/
theorem exists_namedEntity (h : namedEntityWidth? text = some width) : ∃ taken rest,
    '&' :: text = taken ++ rest ∧ taken ∈ namedEntity ∧ taken.length = width := by
  obtain ⟨name, rest, rfl, hname, hrest, hrun⟩ := Script.exists_run Char.isAlphanum text
  simp only [namedEntityWidth?, hrun, List.drop_left, Bool.and_eq_true, beq_iff_eq] at h
  split at h
  next hform =>
    obtain ⟨rest, rfl⟩ := List.head?_eq_some_iff.1 hform.2
    cases name with
    | nil => simp at hform
    | cons c name =>
      refine ⟨'&' :: c :: (name ++ [';']), rest, by simp, ?_, ?_⟩
      · exact mem_namedEntity_iff.2
          ⟨c, name, rfl, hform.1, fun d hd => hname d (List.mem_cons_of_mem _ hd)⟩
      · rw [← Option.some.inj h]
        simp
  next => cases h

/-- The rest of a reference by name is measured as one. -/
theorem namedEntityWidth?_eq_some {c : Char} {name : Text} (hc : c.isAlpha = true)
    (hname : name ∈ many Char.isAlphanum) (rest : Text) :
    namedEntityWidth? (c :: (name ++ ';' :: rest)) = some (name.length + 3) := by
  have hall : ∀ d ∈ c :: name, d.isAlphanum = true :=
    List.forall_mem_cons.2 ⟨by simp [Char.isAlphanum, hc], hname⟩
  have hrun : runLength Char.isAlphanum (c :: name ++ ';' :: rest) = (c :: name).length :=
    Script.runLength_append_of_head? hall (by simp)
  have hsemicolon : (c :: name ++ ';' :: rest).drop (c :: name).length = ';' :: rest :=
    List.drop_left
  rw [List.cons_append] at hrun hsemicolon
  simp only [namedEntityWidth?, hrun, hsemicolon, List.head?_cons, Option.any_some, hc]
  rfl

/-! ## References -/

/-- What is measured as an entity reference is one. -/
theorem exists_entity (h : entityWidth? text = some width) : ∃ taken rest,
    '&' :: text = taken ++ rest ∧ taken ∈ entity ∧ taken.length = width := by
  unfold entityWidth? at h
  split at h
  next hhash =>
    obtain ⟨rest, rfl⟩ := List.head?_eq_some_iff.1 hhash
    rw [List.drop_succ_cons, List.drop_zero] at h
    split at h
    next hmark =>
      obtain ⟨x, rest, rfl, hx⟩ : ∃ x more, rest = x :: more ∧ (x = 'x' ∨ x = 'X') := by
        rcases hmark with hmark | hmark <;> obtain ⟨more, rfl⟩ := List.head?_eq_some_iff.1 hmark
        · exact ⟨_, more, rfl, .inl rfl⟩
        · exact ⟨_, more, rfl, .inr rfl⟩
      obtain ⟨digits, rest, hrest, hdigits, hlength⟩ := exists_codePoint h
      refine ⟨'&' :: '#' :: x :: digits, rest, by simpa using hrest, .inr ?_, ?_⟩
      · exact mem_hexEntity_iff.2 ⟨x, digits, rfl, hx, hdigits⟩
      · simp only [← hlength, List.length_cons]
        omega
    next =>
      obtain ⟨digits, rest, hrest, hdigits, hlength⟩ := exists_codePoint h
      refine ⟨'&' :: '#' :: digits, rest, by simpa using hrest, .inl (.inr ?_), ?_⟩
      · exact mem_decimalEntity_iff.2 ⟨digits, rfl, hdigits⟩
      · simp only [← hlength, List.length_cons]
        omega
  next =>
    obtain ⟨taken, rest, htext, htaken, hlength⟩ := exists_namedEntity h
    exact ⟨taken, rest, htext, .inl (.inl htaken), hlength⟩

/-- An entity reference at the head of a text is measured, and no less than it. -/
theorem exists_entityWidth {taken : Text} (h : taken ∈ entity)
    (htext : '&' :: text = taken ++ rest) :
    ∃ width, entityWidth? text = some width ∧ taken.length ≤ width := by
  rcases h with (hnamed | hdecimal) | hhex
  · obtain ⟨c, name, rfl, hc, hname⟩ := mem_namedEntity_iff.1 hnamed
    obtain rfl : text = c :: (name ++ ';' :: rest) := by simpa using htext
    have hhash : c ≠ '#' := by
      rintro rfl
      revert hc
      decide
    refine ⟨name.length + 3, ?_, by simp⟩
    simpa [entityWidth?, hhash] using namedEntityWidth?_eq_some hc hname rest
  · obtain ⟨digits, rfl, hdigits⟩ := mem_decimalEntity_iff.1 hdecimal
    obtain rfl : text = '#' :: (digits ++ rest) := by simpa using htext
    obtain ⟨width, hwidth, hle⟩ := exists_numericEntityWidth (by decide) hdigits 2 rest
    have hmark : ¬((digits ++ rest).head? = some 'x' ∨ (digits ++ rest).head? = some 'X') := by
      -- A digit stands behind the hash sign.
      obtain ⟨run, ⟨hne, hrun⟩, semicolon, -, rfl⟩ := hdigits
      obtain ⟨d, run, rfl⟩ := List.exists_cons_of_ne_nil hne
      have hd := hrun d List.mem_cons_self
      rintro (hx | hx) <;> obtain rfl := Option.some.inj hx <;> revert hd <;> decide
    refine ⟨width, ?_, by simp only [List.length_cons]; omega⟩
    rwa [entityWidth?, List.head?_cons, if_pos rfl, List.drop_succ_cons, List.drop_zero,
      if_neg hmark]
  · obtain ⟨x, digits, rfl, hx, hdigits⟩ := mem_hexEntity_iff.1 hhex
    obtain rfl : text = '#' :: x :: (digits ++ rest) := by simpa using htext
    obtain ⟨width, hwidth, hle⟩ := exists_numericEntityWidth (by decide) hdigits 3 rest
    refine ⟨width, ?_, by simp only [List.length_cons]; omega⟩
    simpa [entityWidth?, hx] using hwidth

/-- The entity reference that an ampersand starts is the longest one that stands there. -/
theorem entityWidth?_eq_some_iff : entityWidth? text = some width ↔
    ∃ taken, entity.IsLongest ('&' :: text) taken ∧ taken.length = width := by
  refine eq_some_iff_isLongest (fun width h => exists_entity h) ?_ width
  rintro taken hmem ⟨rest, hrest⟩
  exact exists_entityWidth hmem hrest.symm

/-- A text starts with an entity reference. -/
def StartsEntity (text : Text) : Prop :=
  ∃ taken ∈ entity, taken <+: text

/-- Entity references start with an ampersand. -/
theorem exists_cons_of_mem_entity {taken : Text} (h : taken ∈ entity) :
    ∃ more, taken = '&' :: more := by
  rcases h with (h | h) | h
  · obtain ⟨c, name, rfl, -⟩ := mem_namedEntity_iff.1 h
    exact ⟨_, rfl⟩
  · obtain ⟨digits, rfl, -⟩ := mem_decimalEntity_iff.1 h
    exact ⟨_, rfl⟩
  · obtain ⟨x, digits, rfl, -⟩ := mem_hexEntity_iff.1 h
    exact ⟨_, rfl⟩

/-- A text starts with an entity reference if one is measured behind its ampersand. -/
theorem startsEntity_cons_iff {c : Char} :
    StartsEntity (c :: text) ↔ c = '&' ∧ ∃ width, entityWidth? text = some width := by
  constructor
  · rintro ⟨taken, htaken, behind, hbehind⟩
    obtain ⟨more, rfl⟩ := exists_cons_of_mem_entity htaken
    obtain rfl := (List.cons.inj hbehind).1
    obtain ⟨width, hwidth, -⟩ := exists_entityWidth htaken hbehind.symm
    exact ⟨rfl, width, hwidth⟩
  · rintro ⟨rfl, width, hwidth⟩
    obtain ⟨taken, htaken, -⟩ := entityWidth?_eq_some_iff.1 hwidth
    exact ⟨taken, htaken.mem, htaken.isPrefix⟩

/-- Of the entity references that a text starts with, one is the longest. -/
theorem StartsEntity.exists_isLongest (h : StartsEntity text) :
    ∃ taken, entity.IsLongest text taken := by
  cases text with
  | nil =>
    obtain ⟨taken, htaken, hprefix⟩ := h
    obtain ⟨more, rfl⟩ := exists_cons_of_mem_entity htaken
    cases List.prefix_nil.1 hprefix
  | cons c text =>
    obtain ⟨rfl, width, hwidth⟩ := startsEntity_cons_iff.1 h
    obtain ⟨taken, htaken, -⟩ := entityWidth?_eq_some_iff.1 hwidth
    exact ⟨taken, htaken⟩

end

end LineLexer.Markup
