import LineLexer.Flags
import LineLexer.Kind
import LineLexer.State.Basic

/-!
# Moves

A grammar looks at the rest of a line and answers with a move: the pieces it cuts off the head, each
by its width, and the state it goes on in. A move says nothing about the text itself, so whatever a
grammar answers, the pieces cut off and what is left make up the line.

A move may take nothing only when it leaves a state of `slack` for one without. Hence no two moves
in a row take nothing, and lexing a line ends.
-/

namespace LineLexer

/-- A classified piece at the head of a text, by its width in characters. -/
structure Piece where
  kind : Kind
  width : Nat
  language : Language
  flags : Flags
  deriving DecidableEq, Repr

/-- What a grammar does at the head of a text. -/
structure Move where
  pieces : List Piece
  next : ResumeState
  deriving DecidableEq, Repr

/-- The number of characters that pieces in a row take. -/
def totalWidth : List Piece → Nat
  | [] => 0
  | piece :: pieces => piece.width + totalWidth pieces

/-- The number of characters that a move takes. -/
def Move.width (move : Move) : Nat :=
  totalWidth move.pieces

/-- The number of moves in a row that may take nothing: one in a tag, which an opening bracket
breaks off, and in a comment, which the closing tag of its element ends. -/
def ResumeState.slack : ResumeState → Nat
  | markup (.startTag _) | markup .endTag | style (.comment _) | script .comment => 1
  | _ => 0

/-- A move from a state goes forward: it takes something or uses up slack. -/
def Move.Progresses (move : Move) (state : ResumeState) : Prop :=
  0 < move.width ∨ move.next.slack < state.slack

/-- A move of one piece is as wide as the piece. -/
@[simp] theorem Move.width_singleton (piece : Piece) (next : ResumeState) :
    (Move.mk [piece] next).width = piece.width := by
  simp [Move.width, totalWidth]

/-- A move of two pieces is as wide as both. -/
@[simp] theorem Move.width_pair (first second : Piece) (next : ResumeState) :
    (Move.mk [first, second] next).width = first.width + second.width := by
  simp [Move.width, totalWidth]

end LineLexer
