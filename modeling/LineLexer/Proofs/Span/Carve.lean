import LineLexer.Span

/-!
# Carved spans

Pieces in a row are carved one after the other (`carve_append`). Further, what a span has from the
piece that it was carved by, and the spans of the moves of one and of two pieces that the text is
long enough for.
-/

namespace LineLexer

/-- Pieces in a row take what each part of them takes. -/
theorem totalWidth_append (first second : List Piece) :
    totalWidth (first ++ second) = totalWidth first + totalWidth second := by
  induction first with
  | nil => simp [totalWidth]
  | cons piece first ih => simp [totalWidth, ih, Nat.add_assoc]

/-- Pieces after others are carved off what those leave. -/
theorem carve_append (first second : List Piece) (text : Text) :
    carve (first ++ second) text =
      carve first text ++ carve second (text.drop (totalWidth first)) := by
  induction first generalizing text with
  | nil => rfl
  | cons piece first ih =>
    rw [List.cons_append, carve, ih, carve, totalWidth, List.drop_drop]
    split <;> rfl

/-- Nothing is carved off an empty text. -/
@[simp] theorem carve_nil (pieces : List Piece) : carve pieces [] = [] := by
  induction pieces with
  | nil => rfl
  | cons piece pieces ih => simp [carve, ih]

/-- A carved span has its kind, language and flags from a piece. -/
theorem exists_piece_of_mem_carve {pieces : List Piece} {text : Text} {span : Span}
    (h : span ∈ carve pieces text) :
    ∃ piece ∈ pieces,
      span.kind = piece.kind ∧ span.language = piece.language ∧ span.flags = piece.flags := by
  induction pieces generalizing text with
  | nil => cases h
  | cons piece pieces ih =>
    have hrest : span ∈ carve pieces (text.drop piece.width) → ∃ other ∈ piece :: pieces,
        span.kind = other.kind ∧ span.language = other.language ∧ span.flags = other.flags := by
      intro h
      obtain ⟨other, hmem, hother⟩ := ih h
      exact ⟨other, List.mem_cons_of_mem _ hmem, hother⟩
    simp only [carve] at h
    split at h
    · exact hrest h
    · rcases List.mem_cons.1 h with rfl | h
      · exact ⟨piece, List.mem_cons_self, rfl, rfl, rfl⟩
      · exact hrest h

/-- Pieces with a width carve something off a text that is not empty. -/
theorem carve_ne_nil {pieces : List Piece} {text : Text} (hwidth : 0 < totalWidth pieces)
    (htext : text ≠ []) : carve pieces text ≠ [] := by
  intro hnil
  have hspelled := spelled_carve pieces text
  rw [hnil, spelled_nil, eq_comm, List.take_eq_nil_iff] at hspelled
  rcases hspelled with h | h
  · exact Nat.ne_of_gt hwidth h
  · exact htext h

/-- A first piece with a width carves a span off a text that is not empty. -/
theorem carve_cons {piece : Piece} {text : Text} (hw : 0 < piece.width) (ht : text ≠ [])
    (pieces : List Piece) :
    carve (piece :: pieces) text =
      ⟨piece.kind, piece.language, text.take piece.width, piece.flags⟩ ::
        carve pieces (text.drop piece.width) := by
  have hne : text.take piece.width ≠ [] := by
    rw [Ne, List.take_eq_nil_iff]
    rintro (h | h)
    · omega
    · exact ht h
  simp [carve, hne]

/-- A piece with a width carves one span off a text that is not empty. -/
theorem carve_singleton {piece : Piece} {text : Text} (hw : 0 < piece.width) (ht : text ≠ []) :
    carve [piece] text = [⟨piece.kind, piece.language, text.take piece.width, piece.flags⟩] :=
  carve_cons hw ht []

/-- A span that one piece carves is the only one. -/
theorem eq_of_carve_singleton {piece : Piece} {text : Text} {front back : List Span} {span : Span}
    (h : carve [piece] text = front ++ span :: back) :
    front = [] ∧ back = [] ∧
      span = ⟨piece.kind, piece.language, text.take piece.width, piece.flags⟩ := by
  simp only [carve] at h
  split at h
  · simp at h
  · obtain ⟨rfl, hcons⟩ | ⟨_, _, hnil⟩ := List.append_eq_cons_iff.1 h.symm
    · obtain ⟨hspan, hback⟩ := List.cons.inj hcons
      exact ⟨rfl, hback, hspan⟩
    · simp at hnil

/-- Two pieces with a width carve two spans off a text that is longer than the first. -/
theorem carve_pair {first second : Piece} {text : Text} (hf : 0 < first.width)
    (hs : 0 < second.width) (ht : first.width < text.length) :
    carve [first, second] text =
      [⟨first.kind, first.language, text.take first.width, first.flags⟩,
        ⟨second.kind, second.language, (text.drop first.width).take second.width,
          second.flags⟩] := by
  have htext : text ≠ [] := by
    rintro rfl
    cases ht
  have hdrop : text.drop first.width ≠ [] := by
    rw [Ne, List.drop_eq_nil_iff]
    omega
  rw [carve_cons hf htext, carve_singleton hs hdrop]

end LineLexer
