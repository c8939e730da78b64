import LineLexer.Proofs.Bytewise
import Mathlib.Logic.Relation

/-!
# Reading goes forward

Reading a line ends for a local reason: every round moves the cursor, or it leaves the cursor where
it is and changes the state, and then the next round moves the cursor (`Reader.GoesForward`). A
round that takes nothing leaves a state of slack for one without, and from there a round takes
something at the very same character; that is `step_progresses` twice. Every reader that rounds lead
to stands at a place (`Place.exists_of_goes`), so this holds along every run.

The inner loops end for a simpler reason, which needs no place: each turn but the last moves its
cursor, wherever the cursor stands (`Advancing`).
-/

namespace LineLexer

/-! ## Moves of a cursor -/

namespace Cursor

/-- A cursor is in the same line as another, not before it and not past the end. -/
structure Follows (next cursor : Cursor) : Prop where
  line : next.line = cursor.line
  le : cursor.pos ≤ next.pos
  within : next.pos ≤ cursor.length

/-- A cursor that follows another is in a line of the same length. -/
theorem Follows.length_eq {next cursor : Cursor} (h : next.Follows cursor) :
    next.length = cursor.length := by
  rw [length, h.line, length]

/-- A cursor that follows another is not past the end of its line. -/
theorem Follows.pos_le_length {next cursor : Cursor} (h : next.Follows cursor) :
    next.pos ≤ next.length := by
  rw [h.length_eq]
  exact h.within

/-- What follows a cursor that follows another follows the other. -/
theorem Follows.trans {last next cursor : Cursor} (h : last.Follows next)
    (h' : next.Follows cursor) : last.Follows cursor where
  line := h.line.trans h'.line
  le := Nat.le_trans h'.le h.le
  within := by
    have hwithin := h.within
    rwa [h'.length_eq] at hwithin

/-- Before the end of the line there is a byte at the cursor. -/
theorem pos_lt_length {cursor : Cursor} (h : ¬ cursor.atEnd = true) :
    cursor.pos < cursor.length := by
  rw [atEnd, decide_eq_true_eq] at h
  exact Nat.lt_of_not_le h

section

variable {cursor : Cursor} (h : cursor.pos ≤ cursor.length)

include h

/-- A cursor follows itself. -/
theorem follows_self : cursor.Follows cursor := ⟨rfl, Nat.le_refl _, h⟩

/-- Moving by bytes stays in the line. -/
theorem follows_moveBy (n : Nat) : (cursor.moveBy n).Follows cursor where
  line := rfl
  le := Nat.le_min.2 ⟨Nat.le_add_right .., h⟩
  within := Nat.min_le_right ..

/-- Moving by a character stays in the line. -/
theorem follows_moveChar : cursor.moveChar.Follows cursor :=
  follows_moveBy h _

/-- Moving past a run stays in the line. -/
theorem follows_eat (p : Char → Bool) : (cursor.eat p).Follows cursor where
  line := rfl
  le := Nat.le_add_right ..
  within := by
    have hrun := (List.takeWhile_sublist (fun byte => p (Char.ofUInt8 byte))
      (l := (utf8Bytes cursor.line).drop cursor.pos)).length_le
    rw [List.length_drop, length_utf8Bytes] at hrun
    rw [length] at h ⊢
    simp only [eat, eatWhile]
    omega

/-- Moving past a bounded run stays in the line. -/
theorem follows_eatUpTo (p : Char → Bool) (count : Nat) :
    (cursor.eatUpTo p count).Follows cursor := by
  induction count generalizing cursor with
  | zero => exact follows_self h
  | succ count ih =>
    have hone := follows_moveBy h 1
    rw [eatUpTo]
    split
    · exact (ih hone.pos_le_length).trans hone
    · exact follows_self h

/-- Moving past the digits and the brace of an escape stays in the line. -/
theorem follows_bracedEscape : cursor.bracedEscape.2.Follows cursor := by
  have hdigits := follows_eat h isHexDigit
  rw [bracedEscape]
  split
  · exact (follows_moveBy hdigits.pos_le_length 1).trans hdigits
  · exact hdigits

/-- An escape goes on from its backslash. -/
theorem follows_escape : cursor.escape.2.Follows (cursor.moveBy 1) := by
  have hone := (follows_moveBy h 1).pos_le_length
  have htwo := follows_moveBy hone 1
  rw [escape]
  split
  · exact (follows_eatUpTo htwo.pos_le_length isHexDigit 2).trans htwo
  split
  · split
    · have hthree := follows_moveBy hone 2
      exact (follows_bracedEscape hthree.pos_le_length).trans hthree
    · exact (follows_eatUpTo htwo.pos_le_length isHexDigit 4).trans htwo
  split
  · exact follows_eatUpTo hone isOctalDigit 3
  · exact follows_moveChar hone

end

/-- A byte has a width, also one that starts no character. -/
theorem leadWidth_pos (byte : UInt8) : 0 < leadWidth byte := by
  unfold leadWidth
  repeat' split
  all_goals decide

section

variable {cursor : Cursor} (h : cursor.pos < cursor.length)

include h

/-- Before the end of the line, moving by bytes moves the cursor. -/
theorem pos_lt_moveBy {n : Nat} (hn : 0 < n) : cursor.pos < (cursor.moveBy n).pos :=
  Nat.lt_min.2 ⟨Nat.lt_add_of_pos_right hn, h⟩

end

end Cursor

/-! ## Inner loops -/

section

variable {σ ρ : Type}

/-- A loop goes forward from every cursor: each turn but the last moves the cursor of its state. So
it ends within a turn for each byte of the line and one more. -/
structure Advancing (turn : σ → Turn σ ρ) (cursor : σ → Cursor) : Prop where
  moves : ∀ state next, turn state = .again next → (cursor state).pos < (cursor next).pos
  ends : ∀ state, (loop turn ((cursor state).length + 1) state).isSome

variable {turn : σ → Turn σ ρ} {cursor : σ → Cursor}
  (h : ∀ state next, turn state = .again next →
    (cursor next).Follows (cursor state) ∧ (cursor state).pos < (cursor next).pos)

include h

/-- A loop whose turns move forward in the line ends after at most a turn for each byte left. -/
theorem isSome_loop {bound : Nat} {state : σ}
    (hbound : (cursor state).length - (cursor state).pos < bound) :
    (loop turn bound state).isSome := by
  induction bound generalizing state with
  | zero => exact absurd hbound (Nat.not_lt_zero _)
  | succ bound ih =>
    rw [loop]
    cases hturn : turn state with
    | done result => rfl
    | again next =>
      obtain ⟨hfollows, hlt⟩ := h state next hturn
      have hwithin := hfollows.within
      have hlength := hfollows.length_eq
      exact ih (by omega)

/-- A loop whose turns move forward in the line goes forward. -/
theorem advancing_of_follows : Advancing turn cursor where
  moves state next hturn := (h state next hturn).2
  ends _ := isSome_loop h (Nat.lt_succ_of_le (Nat.sub_le ..))

end

namespace Cursor

/-- An escape moves the cursor forward. -/
theorem escape_moves {cursor : Cursor} (h : cursor.pos < cursor.length) :
    cursor.escape.2.Follows cursor ∧ cursor.pos < cursor.escape.2.pos := by
  have hescape := follows_escape (Nat.le_of_lt h)
  exact ⟨hescape.trans (follows_moveBy (Nat.le_of_lt h) 1),
    Nat.lt_of_lt_of_le (pos_lt_moveBy h Nat.one_pos) hescape.le⟩

/-- Moving by a byte at least, or by a character, moves the cursor forward. -/
theorem moveBy_moves {cursor : Cursor} (h : cursor.pos < cursor.length) {n : Nat} (hn : 0 < n) :
    (cursor.moveBy n).Follows cursor ∧ cursor.pos < (cursor.moveBy n).pos :=
  ⟨follows_moveBy (Nat.le_of_lt h) n, pos_lt_moveBy h hn⟩

/-- Moving past a byte and then a character moves the cursor forward. -/
theorem moveBy_moveChar_moves {cursor : Cursor} (h : cursor.pos < cursor.length) :
    (cursor.moveBy 1).moveChar.Follows cursor ∧
      cursor.pos < (cursor.moveBy 1).moveChar.pos := by
  obtain ⟨hone, hlt⟩ := moveBy_moves h Nat.one_pos
  have htwo := follows_moveChar hone.pos_le_length
  exact ⟨htwo.trans hone, Nat.lt_of_lt_of_le hlt htwo.le⟩

/-- The loop over a quoted literal of a style sheet goes forward. -/
theorem advancing_styleLiteralTurn (quote : Quote) : Advancing (styleLiteralTurn quote) id := by
  refine advancing_of_follows fun cursor next h => ?_
  simp only [styleLiteralTurn] at h
  split at h
  next => cases h
  next hmore =>
    have hlt := pos_lt_length hmore
    split at h
    next =>
      cases h
      exact moveBy_moveChar_moves hlt
    split at h
    next => cases h
    next =>
      cases h
      exact moveBy_moves hlt (leadWidth_pos _)

/-- The loop over a quoted literal of a script goes forward. -/
theorem advancing_literalTurn (quote : Quote) : Advancing (literalTurn quote) Prod.fst := by
  refine advancing_of_follows fun ⟨cursor, valid⟩ next h => ?_
  simp only [literalTurn] at h
  split at h
  next => cases h
  next hmore =>
    have hlt := pos_lt_length hmore
    split at h
    next =>
      split at h
      next => cases h
      next =>
        cases h
        exact escape_moves hlt
    split at h
    next => cases h
    next =>
      cases h
      exact moveBy_moves hlt (leadWidth_pos _)

/-- The loop over the text of a template goes forward. -/
theorem advancing_templateTurn : Advancing templateTurn Prod.fst := by
  refine advancing_of_follows fun ⟨cursor, valid⟩ next h => ?_
  simp only [templateTurn] at h
  split at h
  next => cases h
  next hmore =>
    have hlt := pos_lt_length hmore
    split at h
    next => cases h
    split at h
    next =>
      split at h
      next =>
        cases h
        exact moveBy_moves hlt Nat.one_pos
      next =>
        cases h
        exact escape_moves hlt
    split at h
    next => cases h
    next =>
      cases h
      exact moveBy_moves hlt (leadWidth_pos _)

/-- The loop over an interpolation goes forward. -/
theorem advancing_interpolationTurn : Advancing interpolationTurn Prod.fst := by
  refine advancing_of_follows fun ⟨cursor, depth⟩ next h => ?_
  simp only [interpolationTurn] at h
  split at h
  next => cases h
  next hmore =>
    have hlt := pos_lt_length hmore
    split at h
    next =>
      cases h
      exact moveBy_moves hlt Nat.one_pos
    split at h
    next =>
      split at h
      next => cases h
      next =>
        cases h
        exact moveBy_moves hlt Nat.one_pos
    next =>
      cases h
      exact moveBy_moves hlt (leadWidth_pos _)

/-- The loop over a regular expression goes forward. -/
theorem advancing_patternTurn : Advancing patternTurn Prod.fst := by
  refine advancing_of_follows fun ⟨cursor, inClass⟩ next h => ?_
  simp only [patternTurn] at h
  split at h
  next => cases h
  next hmore =>
    have hlt := pos_lt_length hmore
    split at h
    next =>
      cases h
      exact moveBy_moveChar_moves hlt
    split at h
    next =>
      cases h
      exact moveBy_moves hlt Nat.one_pos
    split at h
    next =>
      cases h
      exact moveBy_moves hlt Nat.one_pos
    split at h
    next => cases h
    next =>
      cases h
      exact moveBy_moves hlt (leadWidth_pos _)

end Cursor

/-! ## Rounds -/

namespace Reader

/-- Before the end of the line a round leads from one reader to the next. -/
def Goes (reader next : Reader) : Prop :=
  reader.cursor.atEnd = false ∧ reader.round = some next

/-- A round goes forward: it moves the cursor, or it leaves the cursor before the end of the line
and changes the state, and the next round moves the cursor. -/
def GoesForward (reader : Reader) : Prop :=
  ∃ next, reader.round = some next ∧
    (reader.cursor.pos < next.cursor.pos ∨
      next.cursor = reader.cursor ∧ next.state ≠ reader.state ∧ next.cursor.atEnd = false ∧
        ∃ last, next.round = some last ∧ next.cursor.pos < last.cursor.pos)

end Reader

namespace Place

/-- Pieces that take nothing leave a place where it is. -/
theorem cut_of_totalWidth_eq_zero (place : Place) {pieces : List Piece}
    (h : totalWidth pieces = 0) : place.cut pieces = place := by
  have hspelled := spelled_carve pieces place.rest
  rw [h, List.take_zero] at hspelled
  have hcarve : carve pieces place.rest = [] := by
    refine List.eq_nil_iff_forall_not_mem.2 fun span hspan => text_ne_nil_of_mem_carve hspan ?_
    exact List.flatMap_eq_nil_iff.1 hspelled span hspan
  rw [cut, h, hcarve, List.append_nil, List.drop_zero]

section

variable {place : Place} {c : Char} {rest : Text} (h : place.rest = c :: rest)

include h

/-- Before a character, the reader is not at the end of the line. -/
theorem atEnd_reader_eq_false (state : ResumeState) :
    (place.reader state 0).cursor.atEnd = false := by
  rw [Bool.eq_false_iff, Ne, atEnd_reader, h]
  exact List.cons_ne_nil c rest

/-- A move that takes something moves the cursor. -/
theorem pos_lt_answer {move : Move} (hmove : 0 < move.width) :
    place.pos < (place.answer move).cursor.pos := by
  have hlong : byteLength (place.rest.take move.width) ≠ 0 := by
    rw [Ne, byteLength_eq_zero, h, List.take_eq_nil_iff]
    rintro (hzero | hnil)
    · exact absurd hzero (Nat.ne_of_gt hmove)
    · exact List.cons_ne_nil c rest hnil
  have hpos : (place.answer move).cursor.pos =
      place.pos + byteLength (place.rest.take move.width) := by
    rw [answer, pos_reader, pos, head_cut, byteLength_append]
    rfl
  omega

/-- Before every character, a round goes forward from every state. -/
theorem goesForward_reader (hsolid : place.IsSolid) (state : ResumeState) :
    (place.reader state 0).GoesForward := by
  have hprogress := step_progresses place.past state c rest
  have hround := round_reader h hsolid state
  generalize step place.past state c rest = move at hprogress hround
  rw [Reader.GoesForward, pos_reader]
  rcases Nat.eq_zero_or_pos move.width with hzero | htakes
  · -- The move leaves a state of slack, so at the same character the next move takes something.
    have hslack : move.next.slack < state.slack := hprogress.resolve_left (by omega)
    have hnone := state.slack_le_one
    have hstays : place.answer move = place.reader move.next 0 := by
      rw [answer, cut_of_totalWidth_eq_zero place hzero]
    have htakes : 0 < (step place.past move.next c rest).width :=
      (step_progresses place.past move.next c rest).resolve_right (by omega)
    refine ⟨_, hround, .inr ?_⟩
    rw [hstays]
    refine ⟨rfl, ?_, atEnd_reader_eq_false h move.next, _, round_reader h hsolid move.next, ?_⟩
    · intro hsame
      rw [state_reader, state_reader] at hsame
      rw [hsame] at hslack
      exact Nat.lt_irrefl _ hslack
    · rw [pos_reader]
      exact pos_lt_answer h htakes
  · exact ⟨_, hround, .inl (pos_lt_answer h htakes)⟩

end

/-- Every reader that rounds lead to from the start of a line stands at a place. -/
theorem exists_of_goes {scope : LinkScope} {line : Text} {base : Nat} {state : ResumeState}
    {reader : Reader}
    (h : Relation.ReflTransGen Reader.Goes (.start scope line base state) reader) :
    ∃ (place : Place) (state : ResumeState), place.IsSolid ∧ reader = place.reader state 0 := by
  induction h with
  | refl => exact ⟨start scope line base, state, isSolid_start scope line base, rfl⟩
  | tail _ hgoes ih =>
    obtain ⟨place, state, hsolid, rfl⟩ := ih
    obtain ⟨hmore, hround⟩ := hgoes
    cases hrest : place.rest with
    | nil =>
      rw [(place.atEnd_reader state).2 hrest] at hmore
      cases hmore
    | cons c rest =>
      rw [round_reader hrest hsolid] at hround
      cases hround
      exact ⟨_, _, hsolid.cut _, rfl⟩

end Place

/-- Reading ends for every line and every start state, also one that no word encodes, with the
tokens of the line: a bounded number of rounds leads to the end of the line, every round before it
goes forward, and so do the turns of every inner loop. -/
theorem run_start_goesForward (scope : LinkScope) (line : Text) (base : Nat) (state : ResumeState) :
    (∃ reader, (Reader.start scope line base state).run (2 * byteLength line + 1) = some reader ∧
      reader.cursor.atEnd = true ∧ reader.tokens = (tokenize scope line base state).tokens ∧
      reader.state = (tokenize scope line base state).finish) ∧
    (∀ reader, Relation.ReflTransGen Reader.Goes (.start scope line base state) reader →
      reader.cursor.atEnd = false → reader.GoesForward) ∧
    (∀ quote, Advancing (Cursor.literalTurn quote) Prod.fst) ∧
    (∀ quote, Advancing (Cursor.styleLiteralTurn quote) id) ∧
    Advancing Cursor.templateTurn Prod.fst ∧
    Advancing Cursor.interpolationTurn Prod.fst ∧
    Advancing Cursor.patternTurn Prod.fst := by
  refine ⟨Reader.run_start scope line base state, ?_, Cursor.advancing_literalTurn,
    Cursor.advancing_styleLiteralTurn, Cursor.advancing_templateTurn,
    Cursor.advancing_interpolationTurn, Cursor.advancing_patternTurn⟩
  intro reader hreached hmore
  obtain ⟨place, state, hsolid, rfl⟩ := Place.exists_of_goes hreached
  cases hrest : place.rest with
  | nil =>
    rw [(place.atEnd_reader state).2 hrest] at hmore
    cases hmore
  | cons c rest => exact Place.goesForward_reader hrest hsolid state

end LineLexer
