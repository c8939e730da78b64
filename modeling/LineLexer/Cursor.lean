import LineLexer.Text.Search
import LineLexer.Word

/-!
# Cursors

A cursor is a byte position in a line. Reading past the end gives the byte zero, and no operation
moves past the end. A cursor may stand inside a character if it was moved by bytes; what is left of
the line is then the empty text, and so a search finds nothing there. Positions are machine words: a
number of bytes that makes the sum with the position wrap around reads and moves behind the cursor.
-/

namespace LineLexer

/-- A line and a byte position in it. -/
structure Cursor where
  line : Text
  pos : Nat
  deriving DecidableEq, Repr

/-- The part of a text from a byte position on, if that is a boundary between characters. -/
def dropBytes? : Nat → Text → Option Text
  | 0, text => some text
  | _ + 1, [] => none
  | n + 1, c :: rest => if c.utf8Size ≤ n + 1 then dropBytes? (n + 1 - c.utf8Size) rest else none

/-- The part of a text up to a byte position, if that is a boundary between characters. -/
def takeBytes? : Nat → Text → Option Text
  | 0, _ => some []
  | _ + 1, [] => none
  | n + 1, c :: rest =>
    if c.utf8Size ≤ n + 1 then (takeBytes? (n + 1 - c.utf8Size) rest).map (c :: ·) else none

/-- The width in bytes of the character that a byte starts; one for a byte that starts none. -/
def leadWidth (byte : UInt8) : Nat :=
  if 0xC0 ≤ byte && byte ≤ 0xDF then 2
  else if 0xE0 ≤ byte && byte ≤ 0xEF then 3
  else if 0xF0 ≤ byte && byte ≤ 0xF7 then 4
  else 1

/-- Whether a byte is a blank. -/
def isBlankByte (byte : UInt8) : Bool :=
  byte == 0x20 || byte == 0x09 || byte == 0x0C || byte == 0x0D || byte == 0x0A

namespace Cursor

/-- The cursor at the start of a line. -/
def ofLine (line : Text) : Cursor := ⟨line, 0⟩

/-! ## Reading -/

/-- The length of the line in bytes. -/
def length (cursor : Cursor) : Nat :=
  byteLength cursor.line

/-- Whether nothing is left of the line. -/
def atEnd (cursor : Cursor) : Bool :=
  cursor.length ≤ cursor.pos

/-- The byte at a position of the line, zero past the end. -/
def readAt (cursor : Cursor) (pos : Nat) : UInt8 :=
  (utf8Bytes cursor.line)[pos]?.getD 0

/-- The byte a number of places after the cursor. -/
def peek (cursor : Cursor) (places : Nat) : UInt8 :=
  cursor.readAt (addWord cursor.pos places)

/-- The byte at the cursor, zero at the end. -/
def current (cursor : Cursor) : UInt8 :=
  cursor.readAt cursor.pos

/-- What is left of the line; nothing if the cursor stands inside a character. -/
def rest (cursor : Cursor) : Text :=
  (dropBytes? cursor.pos cursor.line).getD []

/-- The part of the line between two byte positions; nothing if they bound no text. -/
def slice (cursor : Cursor) (start stop : Nat) : Text :=
  if start ≤ stop then
    ((dropBytes? start cursor.line).bind (takeBytes? (stop - start))).getD []
  else []

/-- The part of the line from a byte position up to the cursor. -/
def sliceFrom (cursor : Cursor) (start : Nat) : Text :=
  cursor.slice start cursor.pos

/-- Whether the rest of the line starts with a text. -/
def startsWith (cursor : Cursor) (head : Text) : Bool :=
  head.isPrefixOf cursor.rest

/-- Whether the rest of the line starts with a text, letter case aside. -/
def startsWithFolded (cursor : Cursor) (head : Text) : Bool :=
  LineLexer.startsWithFolded head cursor.rest

/-- The number of bytes before the next occurrence of a text. -/
def find? (cursor : Cursor) (needle : Text) : Option Nat :=
  (indexOf? needle cursor.rest).map fun i => byteLength (cursor.rest.take i)

/-- The number of bytes before the next occurrence of a byte. -/
def findByte? (cursor : Cursor) (byte : UInt8) : Option Nat :=
  (utf8Bytes cursor.rest).findIdx? (· == byte)

/-! ## Moving -/

/-- Moves by a number of bytes, but not past the end. -/
def advance (cursor : Cursor) (bytes : Nat) : Cursor :=
  { cursor with pos := min (addWord cursor.pos bytes) cursor.length }

/-- Moves past the character at the cursor. -/
def advanceChar (cursor : Cursor) : Cursor :=
  cursor.advance (leadWidth cursor.current)

/-- Moves to the end of the line. -/
def advanceToEnd (cursor : Cursor) : Cursor :=
  { cursor with pos := cursor.length }

/-- Moves while the byte at the cursor satisfies `p`. -/
def eatWhile (cursor : Cursor) (p : UInt8 → Bool) : Cursor :=
  { cursor with pos := cursor.pos + (((utf8Bytes cursor.line).drop cursor.pos).takeWhile p).length }

/-- Moves past blanks. -/
def eatBlanks (cursor : Cursor) : Cursor :=
  cursor.eatWhile isBlankByte

/-- Moves past the next occurrence of a text, or to the end if there is none. -/
def eatThrough (cursor : Cursor) (needle : Text) : Bool × Cursor :=
  match cursor.find? needle with
  | some offset => (true, cursor.advance (offset + byteLength needle))
  | none => (false, cursor.advanceToEnd)

end Cursor

end LineLexer
