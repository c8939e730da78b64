import LineLexer.Proofs.ClosingTag
import LineLexer.Proofs.Cursor

/-!
# Where the closing tag of an embedded language is found

A cursor tests for a closing tag at its place (`Cursor.atClosingTag`) and looks for the next one by
the bytes that are left of the line (`Cursor.findClosingTag?`). The test reads the byte after the
tag with the cursor, the search reads it in those bytes, and only the search asks for the bracket
first. They agree nevertheless: from any boundary, the search finds the least number of bytes to
move by for the test to hold, and none if the test holds nowhere in the rest of the line
(`Cursor.findClosingTag?_isLeast`).
-/

namespace LineLexer

namespace Cursor

/-! ## The test and the search -/

/-- Whether the cursor is at a tag, letter case aside, that no further character of a name
follows. -/
def atClosingTag (cursor : Cursor) (tag : Text) : Bool :=
  cursor.startsWithFolded tag && !isTagNameChar (cursor.lookAt tag.length)

/-- Whether a tag stands some bytes after the cursor, to be looked for at brackets. -/
def hasClosingTag (cursor : Cursor) (tag : Text) (offset : Nat) : Bool :=
  (bytewise cursor.rest)[offset]? == some '<' &&
    LineLexer.startsWithFolded tag ((bytewise cursor.rest).drop offset) &&
    !isTagNameChar (byteAt cursor.rest (offset + tag.length))

/-- The number of bytes before the next tag. -/
def findClosingTag? (cursor : Cursor) (tag : Text) : Option Nat :=
  (List.range (byteLength cursor.rest)).find? (cursor.hasClosingTag tag)

section

variable {head text tag : Text}

/-- The character after a tag, if there is one, is tested by its first byte. -/
theorem isTagNameChar_byteAt (text : Text) (places : Nat) :
    isTagNameChar (byteAt text places) = ((bytewise text).drop places).head?.any isTagNameChar := by
  rw [byteAt, List.head?_drop]
  cases (bytewise text)[places]? <;> rfl

/-- The test of a cursor between characters is that of the text after it. -/
theorem atClosingTag_stand (htag : AllAscii tag) (n : Nat) :
    (stand head text n).atClosingTag tag = LineLexer.atClosingTag tag (text.drop n) := by
  rw [← atClosingTag_bytewise htag, atClosingTag, lookAt_stand, isTagNameChar_byteAt,
    Cursor.startsWithFolded, rest_stand, ← startsWithFolded_bytewise htag]
  rfl

/-- Where a tag stands in the bytes left of the line, they start with a bracket and the tag. -/
theorem hasClosingTag_eq (cursor : Cursor) (tag : Text) (offset : Nat) :
    cursor.hasClosingTag tag offset =
      (((bytewise cursor.rest).drop offset).head? == some '<' &&
        LineLexer.atClosingTag tag ((bytewise cursor.rest).drop offset)) := by
  rw [hasClosingTag, isTagNameChar_byteAt, ← List.drop_drop, ← List.head?_drop, Bool.and_assoc]
  rfl

/-- The search finds the first of the places that it looks for. -/
theorem findsLeast_findClosingTag? (cursor : Cursor) (tag : Text) :
    FindsLeast (cursor.findClosingTag? tag)
      {offset | cursor.hasClosingTag tag offset = true} := by
  have hplaces : {offset | cursor.hasClosingTag tag offset = true} =
      {offset | offset < byteLength cursor.rest ∧ cursor.hasClosingTag tag offset = true} := by
    ext offset
    refine ⟨fun h => ⟨?_, h⟩, fun h => h.2⟩
    have hbracket : (bytewise cursor.rest)[offset]? = some '<' := by
      simp only [Set.mem_ofPred_eq, hasClosingTag, Bool.and_eq_true, beq_iff_eq] at h
      exact h.1.1
    obtain ⟨hlt, -⟩ := List.getElem?_eq_some_iff.1 hbracket
    rwa [length_bytewise] at hlt
  rw [hplaces]
  exact findsLeast_find?_range _ _

/-- The search among the bytes gives those before the place that is found in the text. -/
theorem findClosingTag?_eq (htag : AllAscii tag) (cursor : Cursor) :
    cursor.findClosingTag? tag =
      (closingTagIndex? tag cursor.rest).map fun place => byteLength (cursor.rest.take place) := by
  have hindex := (isSearch_closingTagIndex? tag).findsLeast rfl (bytewise cursor.rest)
  simp only [← hasClosingTag_eq] at hindex
  rw [← closingTagIndex?_bytewise htag]
  exact (findsLeast_findClosingTag? cursor tag).unique hindex

/-! ## Moving to a tag -/

/-- A cursor that leaves something of the line behind it has been moved past whole characters. -/
theorem exists_moveBy_stand_eq {bytes : Nat} (h : ((stand head text 0).moveBy bytes).rest ≠ []) :
    ∃ place, byteLength (text.take place) = bytes ∧
      (stand head text 0).moveBy bytes = stand head text place := by
  have hbytes : IsBoundary (head ++ text) (byteLength head + bytes) := by
    cases hdrop : dropBytes? ((stand head text 0).moveBy bytes).pos (head ++ text) with
    | none => exact absurd (congrArg (Option.getD · []) hdrop) h
    | some rest =>
      obtain ⟨front, hline, hpos⟩ := dropBytes?_eq_some.1 hdrop
      have hrest : 0 < byteLength rest := by
        rw [Nat.pos_iff_ne_zero, Ne, byteLength_eq_zero]
        rintro rfl
        exact h (congrArg (Option.getD · []) hdrop)
      -- The move has not been cut short at the end of the line.
      have hlen := congrArg byteLength hline
      rw [byteLength_append front] at hlen
      refine ⟨front, rest, hline, ?_⟩
      simp only [moveBy, length, stand, List.take_zero, byteLength_nil] at hpos
      omega
  obtain ⟨first, more, rfl, rfl⟩ := isBoundary_append_iff.1 hbytes
  have hmove := moveBy_stand_zero_bytes head (first ++ more) first.length
  rw [List.take_left] at hmove
  exact ⟨first.length, by rw [List.take_left], hmove⟩

/-- No tag stands where nothing is left of the line. -/
theorem startsWithFolded_nil (hne : tag ≠ []) : LineLexer.startsWithFolded tag [] = false := by
  cases tag with
  | nil => exact absurd rfl hne
  | cons c tag => rfl

/-- Wherever a cursor has been moved, its test is that of the text left of the line. -/
theorem atClosingTag_moveBy (htag : AllAscii tag) (hne : tag ≠ []) (bytes : Nat) :
    ((stand head text 0).moveBy bytes).atClosingTag tag =
      LineLexer.atClosingTag tag ((stand head text 0).moveBy bytes).rest := by
  by_cases hrest : ((stand head text 0).moveBy bytes).rest = []
  · rw [atClosingTag, Cursor.startsWithFolded, LineLexer.atClosingTag, hrest,
      startsWithFolded_nil hne]
    rfl
  · obtain ⟨place, -, hmove⟩ := exists_moveBy_stand_eq hrest
    rw [hmove, atClosingTag_stand htag, rest_stand]

/-- The test holds where a cursor has been moved by the characters before a tag, and nowhere
else. -/
theorem setOf_atClosingTag_moveBy (htag : AllAscii tag) (hne : tag ≠ []) :
    {bytes | ((stand head text 0).moveBy bytes).atClosingTag tag = true} =
      (fun place => byteLength (text.take place)) ''
        {place | LineLexer.atClosingTag tag (text.drop place) = true} := by
  ext bytes
  rw [Set.mem_ofPred_eq, atClosingTag_moveBy htag hne]
  constructor
  · intro hat
    have hrest : ((stand head text 0).moveBy bytes).rest ≠ [] := by
      intro hnil
      rw [hnil, LineLexer.atClosingTag, startsWithFolded_nil hne] at hat
      cases hat
    obtain ⟨place, hbytes, hmove⟩ := exists_moveBy_stand_eq hrest
    rw [hmove, rest_stand] at hat
    exact ⟨place, hat, hbytes⟩
  · rintro ⟨place, hat, rfl⟩
    rwa [moveBy_stand_zero_bytes, rest_stand]

end

/-- The tags that end embedded languages start with a bracket, as do the texts that have them. -/
theorem head?_of_atClosingTag {tag text : Text} (htag : tag = scriptTag ∨ tag = styleTag)
    (hat : LineLexer.atClosingTag tag text = true) : text.head? = some '<' := by
  obtain ⟨language, rfl⟩ : ∃ language : Language, tag = language.closingTag := by
    rcases htag with rfl | rfl
    · exact ⟨.script, Language.closingTag_script.symm⟩
    · exact ⟨.style, Language.closingTag_style.symm⟩
  obtain ⟨rest, rfl⟩ := (atClosingTag_iff.1 hat).eq_cons
  rfl

/-- The place that is found in a text is the first where a tag stands. -/
theorem findsLeast_closingTagIndex? {tag : Text} (htag : tag = scriptTag ∨ tag = styleTag)
    (text : Text) :
    FindsLeast (closingTagIndex? tag text)
      {place | LineLexer.atClosingTag tag (text.drop place) = true} := by
  have hplaces : {place | LineLexer.atClosingTag tag (text.drop place) = true} =
      {place | ((text.drop place).head? == some '<' &&
        LineLexer.atClosingTag tag (text.drop place)) = true} := by
    ext place
    simp only [Set.mem_ofPred_eq, Bool.and_eq_true, beq_iff_eq]
    exact ⟨fun hat => ⟨head?_of_atClosingTag htag hat, hat⟩, fun h => h.2⟩
  rw [hplaces]
  exact (isSearch_closingTagIndex? tag).findsLeast rfl text

/-- From a boundary on, the search finds the least number of bytes to move by for the test to hold,
and none if it holds nowhere in the rest of the line. Both are what the scan of a text goes by. -/
theorem findClosingTag?_isLeast {cursor : Cursor} (hpos : IsBoundary cursor.line cursor.pos)
    {tag : Text} (htag : tag = scriptTag ∨ tag = styleTag) :
    (∀ bytes, cursor.findClosingTag? tag = some bytes ↔
      IsLeast {moved | (cursor.moveBy moved).atClosingTag tag = true} bytes) ∧
    (cursor.findClosingTag? tag = none ↔
      ∀ moved, (cursor.moveBy moved).atClosingTag tag = false) ∧
    (cursor.findClosingTag? tag =
      (closingTagIndex? tag cursor.rest).map fun place => byteLength (cursor.rest.take place)) ∧
    ∀ moved, (cursor.moveBy moved).atClosingTag tag =
      LineLexer.atClosingTag tag (cursor.moveBy moved).rest := by
  obtain ⟨line, pos⟩ := cursor
  obtain ⟨head, text, rfl, rfl⟩ := hpos
  obtain ⟨hascii, hne⟩ : AllAscii tag ∧ tag ≠ [] := by
    rcases htag with rfl | rfl <;> exact ⟨by decide, by decide⟩
  have hfind : FindsLeast ((stand head text 0).findClosingTag? tag)
      {moved | ((stand head text 0).moveBy moved).atClosingTag tag = true} := by
    rw [setOf_atClosingTag_moveBy hascii hne, findClosingTag?_eq hascii, rest_stand,
      List.drop_zero]
    exact (findsLeast_closingTagIndex? htag text).image (monotone_byteLength_take text)
  have hnone := hfind.eq_none_iff
  rw [Set.eq_empty_iff_forall_notMem] at hnone
  simp only [Set.mem_ofPred_eq, Bool.not_eq_true] at hnone
  exact ⟨hfind.eq_some_iff, hnone, findClosingTag?_eq hascii _, atClosingTag_moveBy hascii hne⟩

/-- A tag whose name goes on with a character of two bytes is passed over, and one in capitals is
found. -/
theorem findClosingTag?_isLeast_of_wide :
    let cursor : Cursor := ⟨"é</scripté</SCRIPT >".toList, 2⟩
    IsBoundary cursor.line cursor.pos ∧ cursor.findClosingTag? scriptTag = some 10 ∧
      IsLeast {moved | (cursor.moveBy moved).atClosingTag scriptTag = true} 10 := by
  intro cursor
  have hpos : IsBoundary cursor.line cursor.pos :=
    ⟨['é'], "</scripté</SCRIPT >".toList, rfl, rfl⟩
  have hfound : cursor.findClosingTag? scriptTag = some 10 := by decide
  exact ⟨hpos, hfound, ((findClosingTag?_isLeast hpos (.inl rfl)).1 10).1 hfound⟩

end Cursor

end LineLexer
