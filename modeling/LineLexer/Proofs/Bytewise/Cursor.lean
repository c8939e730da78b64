import LineLexer.Proofs.Bytewise.Measure

/-!
# Cursors between characters

A cursor reads single bytes and moves by bytes. `stand head text n` is the cursor in the line
`head ++ text` that stands `n` characters into `text`. From there every read is one of the
characters that follow (`lookAt_stand`, `rest?_stand`), and the moves that scanning uses end between
characters again: by ASCII characters (`moveBy_stand`), by a character of any width
(`moveChar_stand`) and by a run of a uniform test (`eat_stand`). `moveBy` is a cursor's `advance`
without words: the two are the same where a position and the number of bytes add up to a word
(`advance_eq_moveBy`), as they do on a line that is no longer than texts are for every number of
bytes that a text may take (`advance_eq_moveBy_of_le`), so that of a character
(`advanceChar_eq_moveChar`).

`loop` runs a scanner's inner loop turn by turn on a bounded number of turns.
-/

namespace LineLexer

/-- The byte a number of places into a text, read as the character of its code; NUL past the
end. -/
def byteAt (text : Text) (places : Nat) : Char :=
  (bytewise text)[places]?.getD '\x00'

/-! ## Bytes of a text -/

/-- The first byte of a text that starts with an ASCII character. -/
@[simp] theorem byteAt_cons_zero {c : Char} (h : isNonAscii c = false) (rest : Text) :
    byteAt (c :: rest) 0 = c := by
  simp [byteAt, bytewise_cons_of_ascii h]

/-- Past an ASCII character come the bytes of the rest. -/
@[simp] theorem byteAt_cons_succ {c : Char} (h : isNonAscii c = false) (rest : Text)
    (places : Nat) : byteAt (c :: rest) (places + 1) = byteAt rest places := by
  simp [byteAt, bytewise_cons_of_ascii h]

/-- The first byte of a text, if there is one, is the head of its bytes. -/
theorem byteAt_zero (text : Text) : byteAt text 0 = (bytewise text).head?.getD '\x00' := by
  rw [byteAt, List.head?_eq_getElem?]

/-- A uniform test has the same result for a character and its first byte. -/
theorem test_byteAt_cons {p : Char → Bool} (hp : Uniform p) (c : Char) (rest : Text) :
    p (byteAt (c :: rest) 0) = p c := by
  cases hc : isNonAscii c with
  | false => rw [byteAt_cons_zero hc]
  | true =>
    obtain ⟨d, more, hd, hna, -, -⟩ := bytewise_cons_of_nonAscii hc rest
    rw [byteAt_zero, hd]
    exact hp d c hna hc

/-- The first byte is an ASCII character only if the first character is. -/
theorem byteAt_cons_eq {x : Char} (hx : isNonAscii x = false) (c : Char) (rest : Text) :
    byteAt (c :: rest) 0 = x ↔ c = x := by
  have h := test_byteAt_cons (asciiOnly_beq hx).uniform c rest
  rwa [Bool.eq_iff_iff, beq_iff_eq, beq_iff_eq] at h

/-- A uniform test that fails for NUL has the same result for the first character, if there is one,
and the first byte. -/
theorem test_byteAt {p : Char → Bool} (hp : Uniform p) (h0 : p '\x00' = false) (text : Text) :
    p (byteAt text 0) = text.head?.any p := by
  cases text with
  | nil => exact h0
  | cons c rest => exact test_byteAt_cons hp c rest

/-- The first byte is a given ASCII character other than NUL exactly if the first character is. -/
theorem byteAt_eq {x : Char} (hx : isNonAscii x = false) (h0 : x ≠ '\x00') (text : Text) :
    byteAt text 0 = x ↔ text.head? = some x := by
  cases text with
  | nil => simpa [byteAt] using h0.symm
  | cons c rest =>
    rw [byteAt_cons_eq hx]
    simp

namespace Cursor

/-- The byte a number of places after the cursor, read as the character of its code. -/
def lookAt (cursor : Cursor) (places : Nat) : Char :=
  Char.ofUInt8 (cursor.readAt (cursor.pos + places))

/-- The byte at the cursor, read as the character of its code. -/
def look (cursor : Cursor) : Char :=
  cursor.lookAt 0

/-- The bytes left of the line, if the cursor stands between characters. -/
def rest? (cursor : Cursor) : Option Text :=
  (dropBytes? cursor.pos cursor.line).map bytewise

/-- Moves while the byte at the cursor passes a test of characters. -/
def eat (cursor : Cursor) (p : Char → Bool) : Cursor :=
  cursor.eatWhile fun byte => p (Char.ofUInt8 byte)

/-- Moves by a number of bytes, but not past the end. -/
def moveBy (cursor : Cursor) (bytes : Nat) : Cursor :=
  { cursor with pos := min (cursor.pos + bytes) cursor.length }

/-- Moves past the character at the cursor. -/
def moveChar (cursor : Cursor) : Cursor :=
  cursor.moveBy (leadWidth cursor.current)

/-- Moves past the next occurrence of a text, or to the end of the line; tells whether there is
one. -/
def through? (cursor : Cursor) (needle : Text) : Option (Bool × Cursor) := do
  let rest ← cursor.rest?
  match widthThrough? needle rest with
  | some width => some (true, cursor.moveBy width)
  | none => some (false, cursor.advanceToEnd)

/-- The cursor in a line of two texts that stands some characters into the second. -/
def stand (head text : Text) (n : Nat) : Cursor :=
  ⟨head ++ text, byteLength head + byteLength (text.take n)⟩

/-! ## Where a cursor stands -/

@[simp] theorem line_stand (head text : Text) (n : Nat) : (stand head text n).line = head ++ text :=
  rfl

@[simp] theorem pos_stand (head text : Text) (n : Nat) :
    (stand head text n).pos = byteLength head + byteLength (text.take n) := rfl

/-- A cursor stands in the same place in a later part of the text. -/
theorem stand_drop (head text : Text) (m n : Nat) :
    stand (head ++ text.take m) (text.drop m) n = stand head text (m + n) := by
  simp [stand, List.take_add, Nat.add_assoc]

/-- ASCII characters take a byte each. -/
theorem pos_stand_add {head text : Text} {m n : Nat} (h : AllAscii ((text.drop m).take n))
    (hn : n ≤ (text.drop m).length) :
    (stand head text (m + n)).pos = (stand head text m).pos + n := by
  rw [pos_stand, pos_stand, List.take_add, byteLength_append, byteLength_of_allAscii h,
    List.length_take, Nat.min_eq_left hn, Nat.add_assoc]

/-- The end of a line is the end of each later part of the text. -/
theorem stand_drop_length (head text : Text) (m : Nat) :
    stand (head ++ text.take m) (text.drop m) (text.drop m).length =
      stand head text text.length := by
  rw [stand_drop, stand, stand, mk.injEq]
  refine ⟨rfl, ?_⟩
  rw [List.take_of_length_le (by rw [List.length_drop]; omega), List.take_length]

/-- A cursor past the last character stands after it. -/
theorem stand_of_le {text : Text} {n : Nat} (h : text.length ≤ n) (head : Text) :
    stand head text n = stand head text text.length := by
  simp [stand, List.take_of_length_le h]

/-- The bytes of a line fall into those before and those after a cursor. -/
theorem bytewise_stand (head text : Text) (n : Nat) :
    ∃ before, bytewise (head ++ text) = before ++ bytewise (text.drop n) ∧
      before.length = (stand head text n).pos := by
  refine ⟨bytewise head ++ bytewise (text.take n), ?_, by simp⟩
  have hsplit : bytewise text = bytewise (text.take n) ++ bytewise (text.drop n) := by
    rw [← bytewise_append, List.take_append_drop]
  rw [bytewise_append, hsplit, List.append_assoc]

/-- There are no more characters after a cursor than bytes in its line. -/
theorem length_drop_lt (head text : Text) (n : Nat) :
    (text.drop n).length < (stand head text n).length + 1 := by
  have h := length_le_byteLength text
  rw [List.length_drop, length, line_stand, byteLength_append]
  omega

/-! ## Reading -/

/-- A cursor reads the bytes of the text after it. -/
theorem lookAt_stand (head text : Text) (n places : Nat) :
    (stand head text n).lookAt places = byteAt (text.drop n) places := by
  obtain ⟨before, hb, hlen⟩ := bytewise_stand head text n
  have hget : (bytewise (head ++ text))[(stand head text n).pos + places]? =
      (bytewise (text.drop n))[places]? := by
    rw [hb, ← hlen, List.getElem?_append_right (by omega), Nat.add_sub_cancel_left]
  rw [byteAt, ← hget, bytewise, List.getElem?_map]
  simp only [lookAt, readAt, line_stand]
  cases (utf8Bytes (head ++ text))[(stand head text n).pos + places]? <;> rfl

theorem look_stand (head text : Text) (n : Nat) :
    (stand head text n).look = byteAt (text.drop n) 0 :=
  lookAt_stand head text n 0

/-- The byte at the cursor is a given ASCII character other than NUL exactly if that is the next
character. -/
theorem look_stand_eq (head text : Text) (n : Nat) {x : Char} (hx : isNonAscii x = false)
    (h0 : x ≠ '\x00') : (stand head text n).look = x ↔ (text.drop n).head? = some x := by
  rw [look_stand, byteAt_eq hx h0]

/-- A uniform test that fails for NUL has the same result for the byte at the cursor and the next
character, if there is one. -/
theorem test_look_stand {p : Char → Bool} (hp : Uniform p) (h0 : p '\x00' = false)
    (head text : Text) (n : Nat) : p (stand head text n).look = (text.drop n).head?.any p := by
  rw [look_stand, test_byteAt hp h0]

/-- Dropping the bytes before a cursor that stands between characters leaves the text after it. -/
theorem dropBytes?_stand (head text : Text) (n : Nat) :
    dropBytes? (stand head text n).pos (stand head text n).line = some (text.drop n) := by
  have h := dropBytes?_append (head ++ text.take n) (text.drop n)
  rwa [List.append_assoc, List.take_append_drop, byteLength_append] at h

/-- The text left after a cursor that stands between characters. -/
theorem rest_stand (head text : Text) (n : Nat) : (stand head text n).rest = text.drop n := by
  rw [rest, dropBytes?_stand, Option.getD_some]

/-- The bytes left after a cursor that stands between characters are those of the text after it. -/
theorem rest?_stand (head text : Text) (n : Nat) :
    (stand head text n).rest? = some (bytewise (text.drop n)) := by
  rw [rest?, dropBytes?_stand, Option.map_some]

/-- A cursor is at the end if no character follows. -/
theorem atEnd_stand (head text : Text) (n : Nat) :
    (stand head text n).atEnd = true ↔ text.drop n = [] := by
  have hsplit : byteLength text = byteLength (text.take n) + byteLength (text.drop n) := by
    rw [← byteLength_append, List.take_append_drop]
  rw [atEnd, decide_eq_true_eq, ← byteLength_eq_zero, length, line_stand, pos_stand,
    byteLength_append, hsplit]
  omega

section

variable (head : Text)

/-- At the end of the text, the cursor is at the end of the line. -/
@[simp] theorem atEnd_stand_nil : (stand head [] 0).atEnd = true :=
  (atEnd_stand head [] 0).2 rfl

/-- Before a character, the cursor is not at the end. -/
@[simp] theorem atEnd_stand_cons (c : Char) (rest : Text) :
    (stand head (c :: rest) 0).atEnd = false := by
  rw [Bool.eq_false_iff, Ne, atEnd_stand]
  exact List.cons_ne_nil c rest

/-- The byte at the cursor is a given ASCII character exactly if the next character is. -/
theorem look_stand_cons {x : Char} (hx : isNonAscii x = false) (c : Char) (rest : Text) :
    (stand head (c :: rest) 0).look = x ↔ c = x := by
  rw [look_stand, List.drop_zero, byteAt_cons_eq hx]

/-- One byte is left of the line if an ASCII character is its last one. -/
theorem pos_succ_stand_cons {c : Char} (hc : isNonAscii c = false) (rest : Text) :
    (stand head (c :: rest) 0).pos + 1 = (stand head (c :: rest) 0).length ↔ rest = [] := by
  rw [← byteLength_eq_zero]
  simp only [length, line_stand, pos_stand, byteLength_append, List.take_zero, byteLength_nil,
    byteLength_cons, utf8Size_of_ascii hc]
  omega

end

/-- The slice between two places of a text. -/
theorem slice?_stand (head text : Text) (m n : Nat) :
    slice? (head ++ text) (stand head text m).pos (stand head text (m + n)).pos =
      some ((text.drop m).take n) := by
  refine slice?_eq_some.2 ⟨head ++ text.take m, (text.drop m).drop n, ?_, by simp, ?_⟩
  · rw [List.append_assoc, List.take_append_drop, List.append_assoc, List.take_append_drop]
  · simp only [pos_stand, List.take_add, byteLength_append]
    omega

/-! ## Moving -/

/-- Moving by the bytes of some characters moves past them. -/
theorem moveBy_stand_bytes (head text : Text) (m n : Nat) :
    (stand head text m).moveBy (byteLength ((text.drop m).take n)) = stand head text (m + n) := by
  have hle : byteLength ((text.drop m).take n) ≤ byteLength (text.drop m) := by
    have h := byteLength_append ((text.drop m).take n) ((text.drop m).drop n)
    rw [List.take_append_drop] at h
    omega
  have hsplit : byteLength text = byteLength (text.take m) + byteLength (text.drop m) := by
    rw [← byteLength_append, List.take_append_drop]
  simp only [moveBy, length, stand, byteLength_append, List.take_add, mk.injEq, true_and]
  omega

/-- Moving by the bytes of the first characters of a text moves past them. -/
theorem moveBy_stand_zero_bytes (head text : Text) (n : Nat) :
    (stand head text 0).moveBy (byteLength (text.take n)) = stand head text n := by
  have hmove := moveBy_stand_bytes head text 0 n
  rwa [List.drop_zero, Nat.zero_add] at hmove

/-- Moving by bytes past ASCII characters. -/
theorem moveBy_stand {head text : Text} {m n : Nat} (h : AllAscii ((text.drop m).take n)) :
    (stand head text m).moveBy n = stand head text (m + n) := by
  rcases Nat.le_total n (text.drop m).length with hn | hn
  · have hbytes : byteLength ((text.drop m).take n) = n := by
      rw [byteLength_of_allAscii h, List.length_take, Nat.min_eq_left hn]
    have hmove := moveBy_stand_bytes head text m n
    rwa [hbytes] at hmove
  · -- There are fewer characters than bytes asked for, so the cursor stops at the end.
    have hall : (text.drop m).take n = text.drop m := List.take_of_length_le hn
    have hbytes : byteLength (text.drop m) ≤ n := by
      rw [hall] at h
      rw [byteLength_of_allAscii h]
      exact hn
    have hsplit : byteLength text = byteLength (text.take m) + byteLength (text.drop m) := by
      rw [← byteLength_append, List.take_append_drop]
    simp only [moveBy, length, stand, byteLength_append, List.take_add, mk.injEq, true_and, hall]
    omega

/-- Moving by bytes past ASCII characters at the start of a text. -/
theorem moveBy_stand_zero {head text : Text} {n : Nat} (h : AllAscii (text.take n)) :
    (stand head text 0).moveBy n = stand head text n := by
  have hmove : (stand head text 0).moveBy n = stand head text (0 + n) := moveBy_stand h
  rwa [Nat.zero_add] at hmove

/-- Moving by one byte past an ASCII character. -/
theorem moveBy_one_stand (head : Text) {c : Char} (hc : isNonAscii c = false) (rest : Text) :
    (stand head (c :: rest) 0).moveBy 1 = stand head (c :: rest) 1 :=
  moveBy_stand_zero (allAscii_take_one hc rfl)

/-- Moving past the character at the cursor, however many bytes it takes. -/
theorem moveChar_stand (head text : Text) (n : Nat) :
    (stand head text n).moveChar = stand head text (n + 1) := by
  cases hdrop : text.drop n with
  | nil =>
    have hlen : text.length ≤ n := List.drop_eq_nil_iff.1 hdrop
    have hend : (stand head text n).length ≤ (stand head text n).pos := by
      have h := (atEnd_stand head text n).2 hdrop
      rwa [atEnd, decide_eq_true_eq] at h
    have hle : (stand head text n).pos ≤ (stand head text n).length := by
      rw [stand_of_le hlen]
      simp [length]
    rw [stand_of_le (Nat.le_succ_of_le hlen), ← stand_of_le hlen, moveChar, moveBy]
    simp only [stand, mk.injEq, true_and] at hend hle ⊢
    omega
  | cons c rest =>
    obtain ⟨lead, more, hbytes, hwidth⟩ := leadWidth_utf8EncodeChar c
    have hcurrent : (stand head text n).current = lead := by
      have h := lookAt_stand head text n 0
      rw [hdrop] at h
      have hbyte : byteAt (c :: rest) 0 = Char.ofUInt8 lead := by
        simp [byteAt, bytewise, utf8Bytes, hbytes]
      rw [hbyte, lookAt] at h
      apply UInt8.toNat_inj.1
      exact congrArg Char.toNat h
    have htake : byteLength ((text.drop n).take 1) = leadWidth lead := by
      simp [hdrop, hwidth]
    rw [moveChar, hcurrent, ← htake]
    exact moveBy_stand_bytes head text n 1

/-- Moving past a run of a uniform test. -/
theorem eat_stand {p : Char → Bool} (hp : Uniform p) (head text : Text) (n : Nat) :
    (stand head text n).eat p = stand head text (n + runLength p (text.drop n)) := by
  have hrun : (((utf8Bytes (head ++ text)).drop (stand head text n).pos).takeWhile
      fun byte => p (Char.ofUInt8 byte)).length = byteLength ((text.drop n).takeWhile p) := by
    rw [← length_takeWhile_bytewise hp]
    have hbytes : utf8Bytes (head ++ text) =
        utf8Bytes (head ++ text.take n) ++ utf8Bytes (text.drop n) := by
      rw [utf8Bytes, utf8Bytes, utf8Bytes, ← List.flatMap_append, List.append_assoc,
        List.take_append_drop]
    have hlen : (utf8Bytes (head ++ text.take n)).length = (stand head text n).pos := by
      rw [length_utf8Bytes, byteLength_append, pos_stand]
    rw [hbytes, ← hlen, List.drop_left, bytewise, List.takeWhile_map, List.length_map]
    rfl
  simp only [stand] at hrun
  simp only [eat, eatWhile, stand, hrun, List.take_add, byteLength_append, take_runLength,
    Nat.add_assoc]

/-- A run whose first byte has been stepped over ends where the whole run does, also if that byte is
the first of several of one character. -/
theorem eat_moveBy_one (cursor : Cursor) (p : Char → Bool) (hend : cursor.pos < cursor.length)
    (hp : p cursor.look = true) : (cursor.moveBy 1).eat p = cursor.eat p := by
  obtain ⟨line, pos⟩ := cursor
  have hlen : pos < (utf8Bytes line).length := by
    rw [length_utf8Bytes]
    exact hend
  have hbyte : p (Char.ofUInt8 (utf8Bytes line)[pos]) = true := by
    simpa [look, lookAt, readAt, List.getElem?_eq_getElem hlen] using hp
  have hmin : min (pos + 1) (byteLength line) = pos + 1 := by
    rw [← length_utf8Bytes]
    omega
  simp only [eat, eatWhile, moveBy, length, hmin, List.drop_eq_getElem_cons hlen,
    List.takeWhile_cons, hbyte, if_true, List.length_cons, mk.injEq, true_and]
  omega

/-- Moving past a first byte and a run: the first character is ASCII or starts the run, and then the
other bytes that it has are part of the run. -/
theorem eat_moveBy_one_stand {p : Char → Bool} (hp : Uniform p) (head : Text) {c : Char}
    (hc : isNonAscii c = false ∨ p c = true) (rest : Text) :
    ((stand head (c :: rest) 0).moveBy 1).eat p =
      stand head (c :: rest) (1 + runLength p rest) := by
  rcases hc with hc | hc
  · rw [moveBy_one_stand head hc, eat_stand hp]
    rfl
  · have hend : (stand head (c :: rest) 0).pos < (stand head (c :: rest) 0).length := by
      have h := atEnd_stand_cons head c rest
      rw [atEnd, decide_eq_false_iff_not] at h
      exact Nat.lt_of_not_le h
    have hlook : p (stand head (c :: rest) 0).look = true := by
      rw [look_stand, List.drop_zero, test_byteAt_cons hp, hc]
    have hrun : runLength p (c :: rest) = 1 + runLength p rest := by
      rw [runLength, List.takeWhile_cons_of_pos hc, List.length_cons, Nat.add_comm, runLength]
    rw [eat_moveBy_one _ p hend hlook, eat_stand hp, List.drop_zero, Nat.zero_add, hrun]

/-- Moving to the end of the line. -/
theorem advanceToEnd_stand (head text : Text) (n : Nat) :
    (stand head text n).advanceToEnd = stand head text text.length := by
  simp [advanceToEnd, length, stand]

/-- Moving past a text of ASCII characters, wherever it is found. -/
theorem through?_stand {needle : Text} (hne : needle ≠ []) (h : AllAscii needle)
    (head text : Text) (n : Nat) :
    (stand head text n).through? needle =
      some (match widthThrough? needle (text.drop n) with
        | some width => (true, stand head text (n + width))
        | none => (false, stand head text text.length)) := by
  rw [through?, rest?_stand]
  simp only [Option.bind_eq_bind, Option.bind_some, widthThrough?_bytewise hne h]
  cases widthThrough? needle (text.drop n) with
  | none => simp only [Option.map_none, advanceToEnd_stand]
  | some width => simp only [Option.map_some, moveBy_stand_bytes]

end Cursor

/-! ## Inner loops -/

/-- What a turn of a loop comes to: another turn, or a result. -/
inductive Turn (σ ρ : Type) where
  | again (next : σ)
  | done (result : ρ)

/-- Takes turns until there is a result; none if the bound on the number of turns is too low. -/
def loop {σ ρ : Type} (turn : σ → Turn σ ρ) : Nat → σ → Option ρ
  | 0, _ => none
  | bound + 1, state =>
    match turn state with
    | .again next => loop turn bound next
    | .done result => some result

section

variable {σ τ ρ : Type} (turn : σ → Turn σ ρ) (enter : Cursor → τ → σ)
  (result : Text → Text → τ → ρ)

/-- A loop over characters: at the end of the text, and at a character, a turn ends with the result
for the text, or it moves past some characters, one at least, so that the result for the rest is the
one for the text. `enter` makes the state of the loop from a cursor and what the loop recalls. -/
structure OverCharacters : Prop where
  nil : ∀ head past, turn (enter (.stand head [] 0) past) = .done (result head [] past)
  cons : ∀ head c rest past,
    turn (enter (.stand head (c :: rest) 0) past) = .done (result head (c :: rest) past) ∨
      ∃ n next,
        turn (enter (.stand head (c :: rest) 0) past) =
          .again (enter (.stand head (c :: rest) (n + 1)) next) ∧
        result (head ++ (c :: rest).take (n + 1)) (rest.drop n) next = result head (c :: rest) past

variable {turn enter result}

/-- A loop over characters ends within a turn for each of them and one more. -/
theorem OverCharacters.loop_eq (h : OverCharacters turn enter result) {bound : Nat}
    (head text : Text) (past : τ) (hlen : text.length < bound) :
    loop turn bound (enter (.stand head text 0) past) = some (result head text past) := by
  induction bound generalizing head text past with
  | zero => exact absurd hlen (Nat.not_lt_zero _)
  | succ bound ih =>
    cases text with
    | nil => rw [loop, h.nil]
    | cons c rest =>
      rw [loop]
      rcases h.cons head c rest past with hdone | ⟨n, next, hagain, hresult⟩
      · rw [hdone]
      · have hshort : (rest.drop n).length < bound := by
          rw [List.length_drop]
          rw [List.length_cons] at hlen
          omega
        have hrest := ih (head ++ (c :: rest).take (n + 1)) (rest.drop n) next hshort
        have hstand := Cursor.stand_drop head (c :: rest) (n + 1) 0
        rw [hagain, ← hresult, ← hrest]
        exact congrArg (fun cursor => loop turn bound (enter cursor next)) hstand.symm

/-- A loop over characters that may take a turn for each byte of the line ends with its result. -/
theorem OverCharacters.loop_stand (h : OverCharacters turn enter result) (head text : Text)
    (n : Nat) (past : τ) :
    loop turn ((Cursor.stand head text n).length + 1) (enter (.stand head text n) past) =
      some (result (head ++ text.take n) (text.drop n) past) := by
  have hstand : Cursor.stand head text n = .stand (head ++ text.take n) (text.drop n) 0 :=
    (Cursor.stand_drop head text n 0).symm
  have hlen := Cursor.length_drop_lt head text n
  rw [← h.loop_eq (head ++ text.take n) (text.drop n) past hlen]
  exact congrArg (fun cursor => loop turn _ (enter cursor past)) hstand

end

end LineLexer
