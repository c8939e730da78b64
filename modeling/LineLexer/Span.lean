import LineLexer.Grammar.Move

/-!
# Spans

A span is a piece with its text. `carve` cuts the pieces of a move off the head of a text and drops
those that come out empty, so the spans of a move spell exactly the text that the move takes.
-/

namespace LineLexer

/-- A classified part of a line. -/
structure Span where
  kind : Kind
  language : Language
  text : Text
  flags : Flags
  deriving DecidableEq, Repr

/-- Cuts pieces off the head of a text, one after the other. -/
def carve : List Piece → Text → List Span
  | [], _ => []
  | piece :: pieces, text =>
    let spans := carve pieces (text.drop piece.width)
    if (text.take piece.width).isEmpty then spans
    else ⟨piece.kind, piece.language, text.take piece.width, piece.flags⟩ :: spans

/-- The text that spans spell. -/
def spelled (spans : List Span) : Text :=
  spans.flatMap Span.text

@[simp] theorem spelled_nil : spelled [] = [] := rfl

@[simp] theorem spelled_cons (span : Span) (spans : List Span) :
    spelled (span :: spans) = span.text ++ spelled spans := rfl

/-- Joined spans spell what both of them spell. -/
@[simp] theorem spelled_append (spans more : List Span) :
    spelled (spans ++ more) = spelled spans ++ spelled more :=
  List.flatMap_append

/-- The spans that are carved spell the text that the pieces take. -/
theorem spelled_carve (pieces : List Piece) (text : Text) :
    spelled (carve pieces text) = text.take (totalWidth pieces) := by
  induction pieces generalizing text with
  | nil => simp [carve, spelled, totalWidth]
  | cons piece pieces ih =>
    have hs : spelled (carve (piece :: pieces) text) =
        text.take piece.width ++ spelled (carve pieces (text.drop piece.width)) := by
      simp only [carve]
      split
      next h => rw [List.isEmpty_iff.1 h, List.nil_append]
      next => rfl
    rw [hs, ih, totalWidth, List.take_add]

/-- No carved span is empty. -/
theorem text_ne_nil_of_mem_carve {pieces : List Piece} {text : Text} {span : Span}
    (h : span ∈ carve pieces text) : span.text ≠ [] := by
  induction pieces generalizing text with
  | nil => cases h
  | cons piece pieces ih =>
    simp only [carve] at h
    split at h
    · exact ih h
    next hne =>
      rcases List.mem_cons.1 h with rfl | h
      · exact fun h0 => hne (List.isEmpty_iff.2 h0)
      · exact ih h

end LineLexer
