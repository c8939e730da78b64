/-!
# Texts and their measures

A text is the list of its characters. All rules of the lexer measure in characters, and only the
offsets that leave the library count bytes: `byteLength` is the one bridge between the two. This is
exact because no rule tells two characters above the ASCII range apart.
-/

namespace LineLexer

/-- A text is the list of its characters. -/
abbrev Text := List Char

/-- The number of bytes that a text takes in UTF-8. -/
def byteLength : Text → Nat
  | [] => 0
  | c :: rest => c.utf8Size + byteLength rest

/-- The UTF-8 bytes of a text. -/
def utf8Bytes (text : Text) : List UInt8 :=
  text.flatMap String.utf8EncodeChar

/-- The number of characters at the head of a text that satisfy `p`. -/
def runLength (p : Char → Bool) (text : Text) : Nat :=
  (text.takeWhile p).length

/-! ## Measures of joined texts -/

@[simp] theorem byteLength_nil : byteLength [] = 0 := rfl

@[simp] theorem byteLength_cons (c : Char) (rest : Text) :
    byteLength (c :: rest) = c.utf8Size + byteLength rest := rfl

/-- Joined texts take the bytes of both. -/
@[simp] theorem byteLength_append (a b : Text) :
    byteLength (a ++ b) = byteLength a + byteLength b := by
  induction a with
  | nil => simp
  | cons c rest ih => simp [ih, Nat.add_assoc]

/-- A text takes as many bytes as its encoding has. -/
theorem length_utf8Bytes (text : Text) : (utf8Bytes text).length = byteLength text := by
  induction text with
  | nil => rfl
  | cons c rest ih =>
    simp only [utf8Bytes, List.flatMap_cons, List.length_append, byteLength_cons] at ih ⊢
    rw [ih, String.length_utf8EncodeChar]

/-- A run is no longer than the text. -/
theorem runLength_le (p : Char → Bool) (text : Text) : runLength p text ≤ text.length :=
  (List.takeWhile_sublist p).length_le

/-- A run that the first character starts is not empty. -/
theorem runLength_pos {p : Char → Bool} {c : Char} (rest : Text) (h : p c = true) :
    0 < runLength p (c :: rest) := by
  simp [runLength, h]

end LineLexer
