import LineLexer.Proofs.Bytewise.Markup
import LineLexer.Proofs.Bytewise.Script
import LineLexer.Proofs.Bytewise.Style

/-!
# Lines read by bytes

A reader takes round after round until its cursor is at the end of the line. In each round the
grammar of its state takes the next pieces. At every place a round gives the reader after the move
of `step` (`Place.round_reader`), so by the recursion of `scan` the rounds give the reader at the
end of the line, whatever the state they start in (`Place.run_eq`). `readLine` is `tokenize` by
bytes, and `readLine_eq_tokenize` is that it never fails.

A reader fails where it asks for a slice or a rest that splits a character
(`failsOffBoundaries`), so `readLine_between_characters` says that no line, state or scope makes it
do so.
-/

namespace LineLexer

/-! ## Rounds -/

namespace Reader

/-- Takes the next pieces with the grammar of the state. -/
def round (reader : Reader) : Option Reader :=
  match reader.state with
  | .markup state => reader.markup state
  | .style state => reader.style state
  | .script state => reader.readScript state

/-- Takes rounds up to the end of the line; none if the bound on the number of rounds is too low. -/
def run : Nat → Reader → Option Reader
  | 0, reader => if reader.cursor.atEnd then some reader else none
  | bound + 1, reader => if reader.cursor.atEnd then some reader else reader.round.bind (run bound)

/-- At the end of the line no round is taken. -/
theorem run_of_atEnd {reader : Reader} (h : reader.cursor.atEnd = true) (bound : Nat) :
    reader.run bound = some reader := by
  cases bound <;> rw [run, if_pos h]

end Reader

/-- The tokens of a line and the state after it, read by bytes. Of two rounds in a row one takes
something, which bounds their number. -/
def readLine (scope : LinkScope) (line : Text) (base : Nat) (state : ResumeState) : Option Lexed :=
  ((Reader.start scope line base state).run (2 * byteLength line + 1)).map fun reader =>
    ⟨reader.tokens, reader.state⟩

/-! ## Rounds from places -/

namespace Place

/-- The place at the start of a line. -/
def start (scope : LinkScope) (line : Text) (base : Nat) : Place :=
  ⟨scope, base, [], line⟩

/-- The place at the end of the line, after the spans of a scan. -/
def after (place : Place) (scanned : Scanned) : Place :=
  { place with spans := place.spans ++ scanned.spans, rest := [] }

/-- No span before a place is empty. -/
def IsSolid (place : Place) : Prop :=
  ∀ span ∈ place.spans, span.text ≠ []

/-- At the start of a line no span has been taken. -/
theorem isSolid_start (scope : LinkScope) (line : Text) (base : Nat) :
    (start scope line base).IsSolid := fun _ h => nomatch h

/-- Cutting drops the pieces that take nothing. -/
theorem IsSolid.cut {place : Place} (h : place.IsSolid) (pieces : List Piece) :
    (place.cut pieces).IsSolid := by
  intro span hspan
  rcases List.mem_append.1 hspan with hspan | hspan
  · exact h span hspan
  · exact text_ne_nil_of_mem_carve hspan

/-- The reader of a place is at the end of the line if nothing is left. -/
theorem atEnd_reader (place : Place) (state : ResumeState) :
    (place.reader state 0).cursor.atEnd = true ↔ place.rest = [] := by
  rw [cursor_reader, Cursor.atEnd_stand, List.drop_zero]

/-- In every state, a round at a place makes the move of the state's grammar. -/
theorem round_reader {place : Place} {c : Char} {rest : Text} (h : place.rest = c :: rest)
    (hsolid : place.IsSolid) (state : ResumeState) :
    (place.reader state 0).round = some (place.answer (step place.past state c rest)) := by
  cases state with
  | markup state => exact markup_reader h hsolid state
  | style state => exact style_reader h state
  | script state => exact script_reader h state

/-- With nothing left, no round is taken. -/
theorem run_of_rest_eq_nil {place : Place} (h : place.rest = []) (state : ResumeState)
    (bound : Nat) :
    (place.reader state 0).run bound =
      some ((place.after (scan place.past state place.rest)).reader
        (scan place.past state place.rest).finish 0) := by
  obtain ⟨scope, base, spans, rest⟩ := place
  obtain rfl : rest = [] := h
  rw [Reader.run_of_atEnd ((atEnd_reader _ state).2 rfl), scan_nil, after, List.append_nil]

/-- From every place the rounds end after the spans of a scan, in its state, if as many are allowed
as moves are possible. -/
theorem run_eq {place : Place} (hsolid : place.IsSolid) (state : ResumeState) {bound : Nat}
    (hbound : 2 * place.rest.length + state.slack ≤ bound) :
    (place.reader state 0).run bound =
      some ((place.after (scan place.past state place.rest)).reader
        (scan place.past state place.rest).finish 0) := by
  induction bound generalizing place state with
  | zero => exact run_of_rest_eq_nil (List.length_eq_zero_iff.1 (by omega)) state 0
  | succ bound ih =>
    cases hrest : place.rest with
    | nil =>
      rw [← hrest]
      exact run_of_rest_eq_nil hrest state _
    | cons c rest =>
      have hmore : ¬ (place.reader state 0).cursor.atEnd = true := by
        rw [atEnd_reader, hrest]
        exact List.cons_ne_nil c rest
      have hround := round_reader hrest hsolid state
      have hscan := scan_cons place.past state c rest
      -- The move leaves less of the line, or less slack.
      have hless := (step_progresses place.past state c rest).measure_lt c rest
      generalize step place.past state c rest = move at hround hscan hless
      have hleft : (place.cut move.pieces).rest = (c :: rest).drop move.width := by
        rw [cut, hrest, Move.width]
      have hrecall : (place.cut move.pieces).past =
          (carve move.pieces (c :: rest)).foldl Recall.note place.past := by
        rw [past, cut, hrest, List.foldl_append, past]
      have hbelow : 2 * (place.cut move.pieces).rest.length + move.next.slack ≤ bound := by
        rw [hrest] at hbound
        rw [hleft]
        omega
      have hmoved := ih (hsolid.cut move.pieces) move.next hbelow
      rw [hleft, hrecall] at hmoved
      rw [Reader.run, if_neg hmore, hround, Option.bind_some, answer, hmoved, hscan]
      simp only [after, cut, hrest, List.append_assoc]

end Place

/-! ## Lines -/

/-- The rounds of a line, and where they end. -/
theorem Reader.run_start (scope : LinkScope) (line : Text) (base : Nat) (state : ResumeState) :
    ∃ reader, (start scope line base state).run (2 * byteLength line + 1) = some reader ∧
      reader.cursor.atEnd = true ∧ reader.tokens = (tokenize scope line base state).tokens ∧
      reader.state = (tokenize scope line base state).finish := by
  have hbound : 2 * line.length + state.slack ≤ 2 * byteLength line + 1 :=
    Nat.add_le_add (Nat.mul_le_mul_left 2 (length_le_byteLength line)) state.slack_le_one
  have hrun := Place.run_eq (Place.isSolid_start scope line base) state hbound
  exact ⟨_, hrun, (Place.atEnd_reader _ _).2 rfl, rfl, rfl⟩

/-- Reading a line by bytes gives its tokens, whatever its characters and its state. -/
theorem readLine_eq_tokenize (scope : LinkScope) (line : Text) (base : Nat) (state : ResumeState) :
    readLine scope line base state = some (tokenize scope line base state) := by
  obtain ⟨reader, hrun, -, htokens, hstate⟩ := Reader.run_start scope line base state
  rw [readLine, hrun, Option.map_some, htokens, hstate]

/-! ## Boundaries -/

/-- Two byte positions of a line bound a part of it: they are in order, within the line, and neither
splits a character. -/
structure IsPart (line : Text) (start stop : Nat) : Prop where
  ordered : start ≤ stop
  within : stop ≤ byteLength line
  start : IsBoundary line start
  stop : IsBoundary line stop

/-- A slice succeeds exactly if its positions bound a part of the line. -/
theorem isSome_slice?_iff_isPart {line : Text} {start stop : Nat} :
    (slice? line start stop).isSome ↔ IsPart line start stop := by
  rw [isSome_slice?_iff]
  exact ⟨fun ⟨hle, hstart, hstop⟩ => ⟨hle, hstop.le, hstart, hstop⟩,
    fun h => ⟨h.ordered, h.start, h.stop⟩⟩

/-- A token is added exactly if its positions bound a part of the line. -/
theorem Reader.isSome_add_iff {reader : Reader} {kind : Kind} {language : Language}
    {start stop : Nat} {flags : Flags} :
    (reader.add kind language start stop flags).isSome ↔
      IsPart reader.cursor.line start stop := by
  rw [← isSome_slice?_iff_isPart, add]
  cases slice? reader.cursor.line start stop <;> simp

/-- A span is pushed only if it is empty or its positions bound a part of the line. -/
theorem Reader.isPart_of_push {reader : Reader} {kind : Kind} {language : Language}
    {start stop : Nat} {flags : Flags} (hne : start ≠ stop)
    (h : (reader.push kind language start stop flags).isSome) :
    IsPart reader.cursor.line start stop := by
  rw [push, if_neg hne] at h
  split at h
  next => cases h
  split at h
  next =>
    -- The span is sliced first, to look for a link in it.
    rw [← isSome_slice?_iff_isPart]
    cases hslice : slice? reader.cursor.line start stop with
    | some text => rfl
    | none => rw [hslice] at h; cases h
  next => exact isSome_add_iff.1 h

/-- What a reader asks of a line fails off the boundaries between its characters. -/
structure FailsOffBoundaries (line : Text) : Prop where
  /-- A slice fails unless its positions bound a part of the line. -/
  slice : ∀ start stop, (slice? line start stop).isSome ↔ IsPart line start stop
  /-- A cursor gives the slice, and nothing in place of one that fails. -/
  slice_eq : ∀ pos start stop,
    (Cursor.mk line pos).slice start stop = (slice? line start stop).getD []
  /-- The rest from a position on fails unless the position is a boundary. -/
  rest : ∀ pos, (Cursor.mk line pos).rest?.isSome ↔ IsBoundary line pos
  /-- A cursor gives the rest, and nothing in place of one that fails. -/
  rest_eq : ∀ pos, bytewise (Cursor.mk line pos).rest = (Cursor.mk line pos).rest?.getD []
  /-- A token is added only where its positions bound a part of the line. -/
  add : ∀ (reader : Reader) kind language start stop flags, reader.cursor.line = line →
    ((reader.add kind language start stop flags).isSome ↔ IsPart line start stop)
  /-- A span is pushed only where its positions bound a part of the line. -/
  push : ∀ (reader : Reader) kind language start stop flags, reader.cursor.line = line →
    start ≠ stop → (reader.push kind language start stop flags).isSome → IsPart line start stop

/-- Whatever the characters of a line, a reader fails off its boundaries. -/
theorem failsOffBoundaries (line : Text) : FailsOffBoundaries line where
  slice _ _ := isSome_slice?_iff_isPart
  slice_eq pos start stop := by
    rw [Cursor.slice, slice?]
    split <;> rfl
  rest pos := by
    rw [Cursor.rest?, Option.isSome_map]
    exact isSome_dropBytes?_iff
  rest_eq pos := by
    rw [Cursor.rest, Cursor.rest?]
    cases dropBytes? pos line <;> rfl
  add := by
    rintro reader kind language start stop flags rfl
    exact Reader.isSome_add_iff
  push := by
    rintro reader kind language start stop flags rfl hne h
    exact Reader.isPart_of_push hne h

-- One byte of a character of two bytes is no part of a line.
example : slice? ['a', 'é'] 1 2 = none := by decide

/-- Every line is read between its characters: whatever its characters, from any state and in any
scope, the reader gets the tokens of the line, and never fails, as it would at a slice, a rest or a
span off the boundaries. The tokens are the parts of the line that they bound. -/
theorem readLine_between_characters (scope : LinkScope) (line : Text) (base : Nat)
    (state : ResumeState) :
    FailsOffBoundaries line ∧
      readLine scope line base state = some (tokenize scope line base state) ∧
      ∀ token ∈ (tokenize scope line base state).tokens,
        base ≤ token.offset ∧ IsPart line (token.offset - base) (token.stop - base) ∧
          slice? line (token.offset - base) (token.stop - base) = some token.text := by
  refine ⟨failsOffBoundaries line, readLine_eq_tokenize scope line base state, ?_⟩
  intro token htoken
  obtain ⟨hbase, hslice⟩ := slice?_of_mem_tokenize htoken
  refine ⟨hbase, isSome_slice?_iff_isPart.1 ?_, hslice⟩
  rw [hslice]
  rfl

end LineLexer
