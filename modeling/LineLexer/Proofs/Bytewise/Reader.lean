import LineLexer.Proofs.Bytewise.Cursor
import LineLexer.Proofs.Bytewise.Measure
import LineLexer.Proofs.Document
import LineLexer.Proofs.Partition
import LineLexer.Proofs.Span.Carve
import LineLexer.Scan

/-!
# Readers

A reader goes over the bytes of a line with a cursor and adds tokens as it goes. It works with byte
positions alone: a token is a slice between two of them, and links are searched in the bytes of a
slice. A slice that would split a character, and a token that does not start where the one before
stops, make the reader fail, so whatever a reader gives was cut between characters.

`Place.reader` is the reader at a place between two characters of a line. The lemmas of the reader
say what its operations do there: a token taken from a place is the piece that a move carves off
the rest (`emit_reader`), and what the reader recalls of its tokens is what a scan recalls of its
spans (`lastSolid_reader`).
-/

namespace LineLexer

/-- A pass over the bytes of a line: the cursor, the state, the last piece of a script that is
neither blank nor a comment, and the tokens so far. -/
structure Reader where
  scope : LinkScope
  base : Nat
  cursor : Cursor
  state : ResumeState
  script : Option (Kind × Text)
  tokens : List Token
  deriving DecidableEq, Repr

namespace Reader

/-- The reader of a line that starts at an offset and in a state. -/
def start (scope : LinkScope) (line : Text) (base : Nat) (state : ResumeState) : Reader :=
  ⟨scope, base, .ofLine line, state, none, []⟩

/-- Moves to a cursor. -/
def seek (reader : Reader) (cursor : Cursor) : Reader :=
  { reader with cursor := cursor }

/-- Goes on in a state. -/
def goto (reader : Reader) (state : ResumeState) : Reader :=
  { reader with state := state }

/-- The position after the last token. -/
def covered (reader : Reader) : Nat :=
  match reader.tokens.getLast? with
  | some token => token.stop - reader.base
  | none => 0

/-- The kind of the last token that has a text and is not of blanks. -/
def lastSolid (reader : Reader) : Option Kind :=
  (reader.tokens.reverse.find? fun token => token.isPaintable && !token.isWhitespace).map Token.kind

/-! ## Adding tokens -/

/-- Adds the slice between two positions as a token. -/
def add (reader : Reader) (kind : Kind) (language : Language) (start stop : Nat) (flags : Flags) :
    Option Reader := do
  let text ← slice? reader.cursor.line start stop
  some { reader with
    tokens := reader.tokens ++ [⟨kind, language, reader.base + start, text, flags⟩] }

/-- Adds the slice between two positions, split around its first link if its kind is in scope. The
slice must start after the last token. -/
def push (reader : Reader) (kind : Kind) (language : Language) (start stop : Nat) (flags : Flags) :
    Option Reader :=
  if start = stop then some reader
  else if start ≠ reader.covered then none
  else if reader.scope.appliesTo kind then do
    let text ← slice? reader.cursor.line start stop
    match Link.find? (bytewise text) with
    | none => reader.add kind language start stop flags
    | some (before, width) =>
      let reader ←
        if 0 < before then reader.add kind language start (start + before) flags else some reader
      let reader ← reader.add kind language (start + before) (start + before + width)
        (flags.set Flags.linkBit)
      -- The part after a link is added even if it is empty.
      reader.add kind language (start + before + width) stop flags
  else reader.add kind language start stop flags

/-- Takes a position up to the cursor as a token of the state's language. -/
def emit (reader : Reader) (kind : Kind) (start : Nat) (flags : Flags) : Option Reader :=
  if start = reader.cursor.pos then some reader
  else do
    let script ←
      if reader.state.language = .script && kind != .whitespace && !kind.isComment then do
        let text ← slice? reader.cursor.line start reader.cursor.pos
        some (some (kind, text))
      else some reader.script
    { reader with script := script }.push kind reader.state.language start reader.cursor.pos flags

/-- Takes the character at the cursor. -/
def single (reader : Reader) (kind : Kind) : Option Reader :=
  (reader.seek reader.cursor.moveChar).emit kind reader.cursor.pos .empty

/-- Takes a number of bytes. -/
def fixed (reader : Reader) (kind : Kind) (width : Nat) : Option Reader :=
  (reader.seek (reader.cursor.moveBy width)).emit kind reader.cursor.pos .empty

/-- Takes a number of bytes and goes on in a state. -/
def fixedTo (reader : Reader) (kind : Kind) (width : Nat) (next : ResumeState) : Option Reader := do
  let reader ← reader.fixed kind width
  some (reader.goto next)

/-- Takes the bytes that pass a test after the cursor. -/
def takeWhile (reader : Reader) (kind : Kind) (start : Nat) (p : Char → Bool) : Option Reader :=
  (reader.seek (reader.cursor.eat p)).emit kind start .empty

/-- Takes blanks. -/
def blanks (reader : Reader) : Option Reader :=
  reader.takeWhile .whitespace reader.cursor.pos isBlank

/-! ## Closing tags and comments -/

/-- Whether the cursor is at a closing tag. -/
def atTag (reader : Reader) (tag : Text) : Option Bool :=
  if reader.cursor.look = '<' then reader.cursor.rest?.map (atClosingTag tag) else some false

/-- Takes a closing tag and hands over to markup. -/
def closeEmbedded (reader : Reader) (tag : Text) : Option Reader := do
  let reader ← (reader.goto (.markup .endTag)).fixed .markupTagDelimiter 2
  reader.fixed .markupTagName (tag.length - 2)

/-- Takes the body of a comment through its delimiter or up to a closing tag; with neither on the
line, it stays open. -/
def comment (reader : Reader) (tag : Text) (next stay : ResumeState) (start : Nat) :
    Option Reader := do
  let rest ← reader.cursor.rest?
  match commentWidth? tag rest with
  | some width =>
    ((reader.seek (reader.cursor.moveBy width)).goto next).emit .commentMultiline start .empty
  | none => ((reader.seek reader.cursor.advanceToEnd).goto stay).emit .commentMultiline start .empty

end Reader

/-! ## Splitting a slice -/

/-- A part of a slice is a slice. -/
theorem slice?_part (before text after : Text) (i n : Nat) :
    slice? (before ++ text ++ after) (byteLength before + byteLength (text.take i))
      (byteLength before + byteLength (text.take i) + byteLength ((text.drop i).take n)) =
        some ((text.drop i).take n) := by
  refine slice?_eq_some.2 ⟨before ++ text.take i, (text.drop i).drop n ++ after, ?_, by simp, rfl⟩
  calc before ++ text ++ after
      = before ++ (text.take i ++ ((text.drop i).take n ++ (text.drop i).drop n)) ++ after := by
        rw [List.take_append_drop, List.take_append_drop]
    _ = before ++ text.take i ++ (text.drop i).take n ++ ((text.drop i).drop n ++ after) := by
        simp only [List.append_assoc]

namespace Reader

/-- A slice between characters that starts after the last token is added with its link split off,
and every part of it is a slice between characters. -/
theorem push_eq (reader : Reader) {before after : Text} (span : Span) (hs : span.text ≠ [])
    (hline : reader.cursor.line = before ++ span.text ++ after)
    (hcovered : reader.covered = byteLength before) :
    reader.push span.kind span.language (byteLength before)
        (byteLength before + byteLength span.text) span.flags =
      some { reader with
        tokens := reader.tokens ++
          placeFrom (reader.base + byteLength before) (span.split reader.scope) } := by
  obtain ⟨kind, language, text, flags⟩ := span
  simp only at hs hline ⊢
  have hlen : byteLength text ≠ 0 := fun h => hs (byteLength_eq_zero.1 h)
  have hwhole : slice? reader.cursor.line (byteLength before)
      (byteLength before + byteLength text) = some text := by
    rw [hline]
    exact slice?_eq_some.2 ⟨before, after, rfl, rfl, rfl⟩
  have hpart : ∀ i n, slice? reader.cursor.line (byteLength before + byteLength (text.take i))
      (byteLength before + byteLength (text.take i) + byteLength ((text.drop i).take n)) =
        some ((text.drop i).take n) := by
    intro i n
    rw [hline]
    exact slice?_part before text after i n
  rw [push, if_neg (by omega), if_neg (by omega), Span.split]
  cases happ : reader.scope.appliesTo kind with
  | false =>
    simp only [Bool.false_eq_true, if_false, add, hwhole, Option.bind_eq_bind, Option.bind_some]
    rfl
  | true =>
    simp only [if_true, hwhole, Option.bind_eq_bind, Option.bind_some, Link.find?_bytewise]
    cases hf : Link.find? text with
    | none =>
      simp only [Option.map_none, add, hwhole, Option.bind_eq_bind, Option.bind_some]
      rfl
    | some found =>
      obtain ⟨i, width⟩ := found
      obtain ⟨hpos, hle⟩ := Link.find?_bounds hf
      have hwidth : byteLength ((text.drop i).take width) = width := by
        rw [byteLength_of_allAscii (Link.allAscii_findFrom? hf), List.length_take, List.length_drop]
        omega
      have hrest : (text.drop (i + width)).take text.length = text.drop (i + width) :=
        List.take_of_length_le (by rw [List.length_drop]; omega)
      have hthrough : byteLength (text.take (i + width)) = byteLength (text.take i) + width := by
        rw [List.take_add, byteLength_append, hwidth]
      have hstop : byteLength text =
          byteLength (text.take (i + width)) + byteLength (text.drop (i + width)) := by
        rw [← byteLength_append, List.take_append_drop]
      -- The three parts are cut one after the other, each where the one before stops.
      have hlead := hpart 0 i
      have hlink := hpart i width
      have htail := hpart (i + width) text.length
      simp only [List.take_zero, byteLength_nil, Nat.add_zero, List.drop_zero] at hlead
      rw [hwidth] at hlink
      rw [hrest, Nat.add_assoc, ← hstop, hthrough, ← Nat.add_assoc] at htail
      simp only [Option.map_some, add, hlead, hlink, htail, Option.bind_eq_bind, Option.bind_some]
      -- A part before the link is added only if it is not empty.
      rcases Nat.eq_zero_or_pos i with rfl | hi
      · rw [Nat.zero_add] at hrest
        rw [List.drop_zero] at hwidth
        simp [placeFrom, Span.part, Span.place, hrest, hwidth, Nat.add_assoc]
      · have hlong : 0 < byteLength (text.take i) := by
          have := length_le_byteLength (text.take i)
          rw [List.length_take] at this
          omega
        have hne : i ≠ 0 := Nat.ne_of_gt hi
        simp [placeFrom, Span.part, Span.place, hrest, hwidth, hlong, hne, Nat.add_assoc]

end Reader

/-- A quotation mark is an ASCII character. -/
theorem Quote.isNonAscii_char (quote : Quote) : isNonAscii quote.char = false := by
  cases quote <;> decide

/-- Which quotation mark a character is. -/
theorem Quote.eq_of_ofChar? {c : Char} {quote : Quote} (h : Quote.ofChar? c = some quote) :
    c = quote.char := by
  unfold Quote.ofChar? at h
  split at h
  next hc =>
    cases h
    exact hc
  split at h
  next hc =>
    cases h
    exact hc
  next => cases h

/-! ## Places -/

/-- A place between two characters of a line, whose scope and offset are known: the spans before it
and the text after it. -/
structure Place where
  scope : LinkScope
  base : Nat
  spans : List Span
  rest : Text

namespace Place

/-- The text before a place. -/
def head (place : Place) : Text :=
  spelled place.spans

/-- The position of a place. -/
def pos (place : Place) : Nat :=
  byteLength place.head

/-- What a scan recalls at a place. -/
def past (place : Place) : Recall :=
  place.spans.foldl Recall.note .start

/-- The reader in a state with the tokens before a place, whose cursor is a number of characters
after it. -/
def reader (place : Place) (state : ResumeState) (n : Nat) : Reader :=
  ⟨place.scope, place.base, .stand place.head place.rest n, state, place.past.script,
    placeFrom place.base (place.spans.flatMap (Span.split place.scope))⟩

/-- The place after pieces are cut off the rest. -/
def cut (place : Place) (pieces : List Piece) : Place :=
  { place with
    spans := place.spans ++ carve pieces place.rest,
    rest := place.rest.drop (totalWidth pieces) }

/-- The reader after a move. -/
def answer (place : Place) (move : Move) : Reader :=
  (place.cut move.pieces).reader move.next 0

/-! ## Cutting -/

/-- Behind the pieces stands the text that they take. -/
theorem head_cut (place : Place) (pieces : List Piece) :
    (place.cut pieces).head = place.head ++ place.rest.take (totalWidth pieces) := by
  rw [head, cut, spelled, List.flatMap_append]
  exact congrArg _ (spelled_carve pieces place.rest)

/-- Cutting off nothing stays at the place. -/
@[simp] theorem cut_nil (place : Place) : place.cut [] = place := by
  simp [cut, carve, totalWidth]

/-- Pieces are cut one after the other. -/
theorem cut_cut (place : Place) (first second : List Piece) :
    (place.cut first).cut second = place.cut (first ++ second) := by
  simp only [cut, carve_append, totalWidth_append, List.append_assoc, List.drop_drop]

/-- What is left after one piece. -/
@[simp] theorem rest_cut_singleton (place : Place) (piece : Piece) :
    (place.cut [piece]).rest = place.rest.drop piece.width := by
  simp [cut, totalWidth]

/-- The cursor of a place after pieces. -/
theorem stand_cut (place : Place) (pieces : List Piece) (n : Nat) :
    Cursor.stand (place.cut pieces).head (place.cut pieces).rest n =
      .stand place.head place.rest (totalWidth pieces + n) := by
  rw [head_cut]
  exact Cursor.stand_drop ..

section

variable (place : Place) (state : ResumeState) (n : Nat)

@[simp] theorem cursor_reader :
    (place.reader state n).cursor = .stand place.head place.rest n := rfl

@[simp] theorem state_reader : (place.reader state n).state = state := rfl

@[simp] theorem goto_reader (next : ResumeState) :
    (place.reader state n).goto next = place.reader next n := rfl

@[simp] theorem seek_reader (m : Nat) :
    (place.reader state n).seek (.stand place.head place.rest m) = place.reader state m := rfl

/-- The tokens of a reader go up to its place. -/
theorem covered_reader : (place.reader state n).covered = place.pos := by
  -- Split or not, the spans spell what stands before the place.
  have hspelled : spelled (place.spans.flatMap (Span.split place.scope)) = place.head :=
    Span.spelled_flatMap_split ..
  rw [Reader.covered]
  split
  next token h =>
    have hstop := stop_of_mem_getLast?_placeFrom (Option.mem_def.2 h)
    rw [hspelled] at hstop
    rw [hstop]
    exact Nat.add_sub_cancel_left ..
  next h =>
    rw [List.getLast?_eq_none_iff] at h
    rw [placeFrom_eq_nil.1 h] at hspelled
    rw [pos, ← hspelled]
    rfl

end

/-- What is recalled of a script after a span. -/
theorem script_note (past : Recall) (span : Span) :
    (past.note span).script =
      if span.language = .script && span.kind != .whitespace && !span.kind.isComment then
        some (span.kind, span.text)
      else past.script := by
  rw [Recall.note]
  by_cases hblank : span.kind = .whitespace
  · simp [hblank]
  · have hne : (span.kind != .whitespace) = true := by simpa using hblank
    rw [if_neg hblank, hne, Bool.and_true]
    split <;> rfl

/-- A token taken from a place up to the cursor is the piece that is cut off there. -/
theorem emit_reader (place : Place) (state : ResumeState) (n : Nat) (kind : Kind) (flags : Flags) :
    (place.reader state n).emit kind place.pos flags =
      some ((place.cut [⟨kind, n, state.language, flags⟩]).reader state 0) := by
  have hcursor := place.stand_cut [⟨kind, n, state.language, flags⟩] 0
  have hpos : (Cursor.stand place.head place.rest n).pos =
      place.pos + byteLength (place.rest.take n) := rfl
  rw [Reader.emit, cursor_reader, state_reader, hpos]
  cases htake : place.rest.take n with
  | nil =>
    -- No character is taken, so the piece is dropped.
    have hrest : place.rest.drop n = place.rest := by
      have h := List.take_append_drop n place.rest
      rwa [htake, List.nil_append] at h
    have hcut : place.cut [⟨kind, n, state.language, flags⟩] = place := by
      simp [cut, carve, totalWidth, htake, hrest]
    rw [if_pos (by simp), hcut]
    simp [reader, Cursor.stand, htake]
  | cons c taken =>
    have hne : place.rest.take n ≠ [] := by
      rw [htake]
      exact List.cons_ne_nil _ _
    have hbytes : byteLength (place.rest.take n) ≠ 0 := fun h => hne (byteLength_eq_zero.1 h)
    have hline : (Cursor.stand place.head place.rest n).line =
        place.head ++ place.rest.take n ++ place.rest.drop n := by
      rw [List.append_assoc, List.take_append_drop]
      rfl
    have htext : slice? (Cursor.stand place.head place.rest n).line place.pos
        (place.pos + byteLength (place.rest.take n)) = some (place.rest.take n) :=
      slice?_eq_some.2 ⟨place.head, place.rest.drop n, hline, rfl, rfl⟩
    have hspelled : spelled (place.spans.flatMap (Span.split place.scope)) = place.head :=
      Span.spelled_flatMap_split ..
    have hcarve : carve [⟨kind, n, state.language, flags⟩] place.rest =
        [⟨kind, state.language, place.rest.take n, flags⟩] := by
      simp [carve, htake]
    -- The span is pushed whatever is recalled of a script, which changes before it is.
    have hpush := fun script => Reader.push_eq { place.reader state n with script }
      ⟨kind, state.language, place.rest.take n, flags⟩ hne hline (place.covered_reader state n)
    have hnote := script_note place.past ⟨kind, state.language, place.rest.take n, flags⟩
    rw [← htake, if_neg (by omega)]
    have hresult : ((place.cut [⟨kind, n, state.language, flags⟩]).reader state 0) =
        { place.reader state n with
          script := (place.past.note ⟨kind, state.language, place.rest.take n, flags⟩).script,
          tokens := (place.reader state n).tokens ++ placeFrom (place.base + place.pos)
            (Span.split place.scope ⟨kind, state.language, place.rest.take n, flags⟩) } := by
      rw [reader, hcursor]
      simp only [cut, hcarve, past, List.foldl_append, List.foldl_cons, List.foldl_nil,
        List.flatMap_append, List.flatMap_cons, List.flatMap_nil, List.append_nil,
        placeFrom_append, hspelled]
      rfl
    rw [hresult, hnote]
    split
    next hscript =>
      simp only [htext, Option.bind_eq_bind, Option.bind_some]
      exact hpush _
    next =>
      exact hpush _

/-- The tokens of a span that has a text end in a solid one, unless they are of blanks. -/
theorem find?_placeFrom_split (scope : LinkScope) (offset : Nat) {span : Span}
    (hs : span.text ≠ []) :
    ((placeFrom offset (span.split scope)).reverse.find? fun token =>
        token.isPaintable && !token.isWhitespace).map Token.kind =
      if span.kind = .whitespace then none else some span.kind := by
  have hkind : ∀ token ∈ placeFrom offset (span.split scope), token.kind = span.kind := by
    intro token ht
    have hmem : token.span ∈ span.split scope := by
      rw [← map_span_placeFrom offset (span.split scope)]
      exact List.mem_map_of_mem ht
    exact (Span.kind_of_mem_split hmem).1
  cases hf : (placeFrom offset (span.split scope)).reverse.find? fun token =>
      token.isPaintable && !token.isWhitespace with
  | some token =>
    have hmem := List.mem_reverse.1 (List.mem_of_find?_eq_some hf)
    have hsolid := List.find?_some hf
    simp only [Token.isWhitespace, hkind token hmem, Bool.and_eq_true, Bool.not_eq_true',
      beq_eq_false_iff_ne] at hsolid
    rw [if_neg hsolid.2, Option.map_some, hkind token hmem]
  | none =>
    by_cases hblank : span.kind = .whitespace
    · rw [if_pos hblank, Option.map_none]
    · -- The first part has a text, so its token is solid.
      obtain ⟨first, parts, hsplit⟩ := List.exists_cons_of_ne_nil (Span.split_ne_nil scope span)
      have hfirst := (Span.isChain_split scope hs).2 first (by rw [hsplit]; rfl)
      rw [hsplit, List.find?_eq_none] at hf
      have hno := hf (first.place offset) (by simp [placeFrom])
      have hkindFirst := hkind (first.place offset) (by simp [hsplit, placeFrom])
      simp [Token.isPaintable, Token.isWhitespace, hkindFirst, hblank] at hno
      exact absurd hno hfirst

/-- The last token that is not of blanks has the kind that a scan recalls, if no span is empty. -/
theorem lastSolid_reader (place : Place) (state : ResumeState) (n : Nat)
    (h : ∀ span ∈ place.spans, span.text ≠ []) :
    (place.reader state n).lastSolid = place.past.solid := by
  -- The induction is on the last span: what it shows hides what was found before it.
  obtain ⟨scope, base, spans, rest⟩ := place
  simp only [Reader.lastSolid, reader, past] at h ⊢
  induction spans using List.reverseRecOn with
  | nil => rfl
  | append_singleton spans span ih =>
    have hspan := h span (by simp)
    have hih := ih fun s hs => h s (List.mem_append_left _ hs)
    rw [List.flatMap_append, placeFrom_append, List.reverse_append, List.find?_append,
      Option.map_or, hih, List.flatMap_singleton, find?_placeFrom_split scope _ hspan,
      List.foldl_append, List.foldl_cons, List.foldl_nil, Recall.note]
    split
    · rfl
    · split <;> rfl

/-! ## Looking ahead -/

section

variable {place : Place} {c : Char} {rest : Text} (h : place.rest = c :: rest) (state : ResumeState)

include h

/-- A uniform test has the same result for the byte at the cursor and the next character. -/
theorem test_look {p : Char → Bool} (hp : Uniform p) :
    p (place.reader state 0).cursor.look = p c := by
  rw [cursor_reader, Cursor.look_stand, List.drop_zero, h, test_byteAt_cons hp]

/-- The byte at the cursor is a given ASCII character exactly if the next character is. -/
theorem look_eq {x : Char} (hx : isNonAscii x = false) :
    (place.reader state 0).cursor.look = x ↔ c = x := by
  rw [cursor_reader, Cursor.look_stand, List.drop_zero, h, byteAt_cons_eq hx]

/-- The byte at the cursor is a quotation mark exactly if the next character is. -/
theorem ofChar?_look : Quote.ofChar? (place.reader state 0).cursor.look = Quote.ofChar? c := by
  simp (disch := decide) only [Quote.ofChar?, look_eq h state]

/-- After an ASCII character stand the bytes of the rest. -/
theorem lookAt_succ (hc : isNonAscii c = false) (places : Nat) :
    (place.reader state 0).cursor.lookAt (places + 1) = byteAt rest places := by
  rw [cursor_reader, Cursor.lookAt_stand, List.drop_zero, h, byteAt_cons_succ hc]

/-- The byte after an ASCII character is another one exactly if the next character is. -/
theorem lookAt_one_eq (hc : isNonAscii c = false) {x : Char} (hx : isNonAscii x = false)
    (h0 : x ≠ '\x00') :
    (place.reader state 0).cursor.lookAt 1 = x ↔ rest.head? = some x := by
  rw [lookAt_succ h state hc, byteAt_eq hx h0]

/-- After an ASCII character, a uniform test that fails for NUL has the same result for the byte and
the next character, if there is one. -/
theorem test_lookAt_one (hc : isNonAscii c = false) {p : Char → Bool} (hp : Uniform p)
    (h0 : p '\x00' = false) :
    p ((place.reader state 0).cursor.lookAt 1) = rest.head?.any p := by
  rw [lookAt_succ h state hc, test_byteAt hp h0]

end

/-- A mark of so many ASCII characters stands at a place. -/
structure HasMark (place : Place) (n : Nat) : Prop where
  ascii : AllAscii (place.rest.take n)
  le : n ≤ place.rest.length

/-- A text of ASCII characters that the rest starts with is a mark. -/
theorem HasMark.of_append {place : Place} (mark : Text) {tail : Text}
    (h : place.rest = mark ++ tail) (hmark : AllAscii mark) : place.HasMark mark.length where
  ascii := by
    rw [h, List.take_left]
    exact hmark
  le := by
    rw [h, List.length_append]
    exact Nat.le_add_right ..

/-- The first character is a mark if it is ASCII. -/
theorem HasMark.one {place : Place} {c : Char} {rest : Text} (h : place.rest = c :: rest)
    (hc : isNonAscii c = false) : place.HasMark 1 where
  ascii := allAscii_take_one hc (by rw [h]; rfl)
  le := by
    rw [h]
    exact Nat.le_add_left ..

/-- A quotation mark is a mark. -/
theorem HasMark.quote {place : Place} {c : Char} {rest : Text} (h : place.rest = c :: rest)
    {quote : Quote} (hc : Quote.ofChar? c = some quote) : place.HasMark 1 := by
  refine .one h ?_
  rw [Quote.eq_of_ofChar? hc]
  exact quote.isNonAscii_char

/-- Moving by the bytes of a mark moves past its characters. -/
theorem HasMark.seek {place : Place} {n : Nat} (h : place.HasMark n) (state : ResumeState) :
    (place.reader state 0).seek ((place.reader state 0).cursor.moveBy n) =
      place.reader state n := by
  rw [cursor_reader, Cursor.moveBy_stand_zero h.ascii, seek_reader]

/-! ## Tokens of a single piece -/

@[simp] theorem pos_reader (place : Place) (state : ResumeState) :
    (place.reader state 0).cursor.pos = place.pos := by
  simp [pos]

/-- The characters that a run takes. -/
theorem takeWhile_reader (place : Place) (state : ResumeState) (n : Nat) (kind : Kind)
    {p : Char → Bool} (hp : Uniform p) :
    (place.reader state n).takeWhile kind place.pos p =
      some ((place.cut [⟨kind, n + runLength p (place.rest.drop n), state.language, .empty⟩]).reader
        state 0) := by
  rw [Reader.takeWhile, cursor_reader, Cursor.eat_stand hp, seek_reader, emit_reader]

/-- A number of bytes that are ASCII characters. -/
theorem fixed_reader (place : Place) (state : ResumeState) (kind : Kind) {n : Nat}
    (h : AllAscii (place.rest.take n)) :
    (place.reader state 0).fixed kind n =
      some ((place.cut [⟨kind, n, state.language, .empty⟩]).reader state 0) := by
  rw [Reader.fixed, pos_reader, cursor_reader, Cursor.moveBy_stand_zero h, seek_reader,
    emit_reader]

/-- One character, however many bytes it takes. -/
theorem single_reader (place : Place) (state : ResumeState) (kind : Kind) :
    (place.reader state 0).single kind =
      some ((place.cut [⟨kind, 1, state.language, .empty⟩]).reader state 0) := by
  rw [Reader.single, pos_reader, cursor_reader, Cursor.moveChar_stand, seek_reader, emit_reader]

/-- A number of bytes that are ASCII characters, and another state. -/
theorem fixedTo_reader (place : Place) (state : ResumeState) (kind : Kind) {n : Nat}
    (h : AllAscii (place.rest.take n)) (next : ResumeState) :
    (place.reader state 0).fixedTo kind n next =
      some ((place.cut [⟨kind, n, state.language, .empty⟩]).reader next 0) := by
  rw [Reader.fixedTo, fixed_reader place state kind h]
  rfl

section

variable {place : Place} {c : Char} {rest : Text} (h : place.rest = c :: rest) (state : ResumeState)
  (kind : Kind)

include h

/-- One ASCII character. -/
theorem fixed_one_reader (hc : isNonAscii c = false) :
    (place.reader state 0).fixed kind 1 =
      some ((place.cut [⟨kind, 1, state.language, .empty⟩]).reader state 0) :=
  fixed_reader place state kind (allAscii_take_one hc (by rw [h]; rfl))

/-- One ASCII character, and another state. -/
theorem fixedTo_one_reader (hc : isNonAscii c = false) (next : ResumeState) :
    (place.reader state 0).fixedTo kind 1 next =
      some ((place.cut [⟨kind, 1, state.language, .empty⟩]).reader next 0) :=
  fixedTo_reader place state kind (allAscii_take_one hc (by rw [h]; rfl)) next

/-- A run that the first character starts. -/
theorem run_reader {p : Char → Bool} (hp : Uniform p) (hc : p c = true) :
    (place.reader state 0).takeWhile kind place.pos p =
      some ((place.cut [⟨kind, runLength p rest + 1, state.language, .empty⟩]).reader state 0) := by
  have hrun : runLength p place.rest = runLength p rest + 1 := by
    rw [h, runLength, List.takeWhile_cons_of_pos hc, List.length_cons]
    rfl
  rw [takeWhile_reader place state 0 kind hp, List.drop_zero, Nat.zero_add, hrun]

/-- The blanks at the head, of which the first is known. -/
theorem blanks_reader (hc : isBlank c = true) :
    (place.reader state 0).blanks =
      some ((place.cut [⟨.whitespace, runLength isBlank rest + 1, state.language, .empty⟩]).reader
        state 0) := by
  rw [Reader.blanks, pos_reader, run_reader h state _ asciiOnly_isBlank.uniform hc]

/-- A word that starts with any character and goes on with a uniform test. -/
theorem word_reader {p : Char → Bool} (hp : Uniform p) :
    ((place.reader state 0).seek (place.reader state 0).cursor.moveChar).takeWhile kind place.pos
        p =
      some ((place.cut [⟨kind, runLength p rest + 1, state.language, .empty⟩]).reader state 0) := by
  rw [cursor_reader, Cursor.moveChar_stand, seek_reader, takeWhile_reader place state _ kind hp,
    h, Nat.add_comm]
  rfl

/-- A word whose first byte is stepped over: the first character is ASCII or goes on with the word,
and then so do the other bytes that it has. -/
theorem sigil_reader {p : Char → Bool} (hp : Uniform p) (hc : isNonAscii c = false ∨ p c = true) :
    ((place.reader state 0).seek ((place.reader state 0).cursor.moveBy 1)).takeWhile kind place.pos
        p =
      some ((place.cut [⟨kind, runLength p rest + 1, state.language, .empty⟩]).reader state 0) := by
  have hcursor := Cursor.eat_moveBy_one_stand hp place.head hc rest
  rw [← h, Nat.add_comm] at hcursor
  rw [Reader.takeWhile]
  have hseek : ((place.reader state 0).seek ((place.reader state 0).cursor.moveBy 1)).seek
      (((place.reader state 0).cursor.moveBy 1).eat p) =
        place.reader state (runLength p rest + 1) := by
    rw [cursor_reader, hcursor]
    rfl
  exact (congrArg (fun reader => reader.emit kind place.pos .empty) hseek).trans
    (emit_reader place state _ kind .empty)

end

/-! ## Closing tags -/

/-- Being at a closing tag is a property of the characters. -/
theorem atTag_reader {place : Place} {c : Char} {rest : Text} (h : place.rest = c :: rest)
    (state : ResumeState) {tag : Text} (htag : AllAscii tag) :
    (place.reader state 0).atTag tag = some (c = '<' && atClosingTag tag (c :: rest)) := by
  simp (disch := decide) only [Reader.atTag, look_eq h]
  rw [cursor_reader, Cursor.rest?_stand, List.drop_zero, h, Option.map_some,
    atClosingTag_bytewise htag]
  split
  next hc => simp [hc]
  next hc => simp [hc]

/-- At a closing tag the bytes of its bracket and name are those characters. -/
theorem closeEmbedded_reader (place : Place) (state : ResumeState) {tag : Text} (h : AllAscii tag)
    (hlen : 2 ≤ tag.length) (hat : atClosingTag tag place.rest = true) :
    (place.reader state 0).closeEmbedded tag = some (place.answer (closeElement tag)) := by
  simp only [atClosingTag, Bool.and_eq_true] at hat
  -- In any letter case the tag is of ASCII characters; the bracket is taken first, then the name.
  have hascii := allAscii_take_of_startsWithFolded h hat.1
  rw [← Nat.add_sub_cancel' hlen, List.take_add] at hascii
  have htwo : AllAscii (place.rest.take 2) := fun c hc => hascii c (List.mem_append_left _ hc)
  have hname : AllAscii ((place.rest.drop 2).take (tag.length - 2)) :=
    fun c hc => hascii c (List.mem_append_right _ hc)
  simp only [Reader.closeEmbedded, goto_reader, fixed_reader place _ _ htwo, Option.bind_eq_bind,
    Option.bind_some]
  rw [fixed_reader _ _ _ hname, cut_cut]
  rfl

/-- A comment, after its opening. -/
theorem comment_reader (place : Place) (state : ResumeState) {lead : Nat}
    (hlead : lead ≤ place.rest.length) {tag : Text} (htag : AllAscii tag)
    (next stay : ResumeState) :
    (place.reader state lead).comment tag next stay place.pos =
      some (match commentWidth? tag (place.rest.drop lead) with
        | some width =>
          (place.cut [⟨.commentMultiline, lead + width, next.language, .empty⟩]).reader next 0
        | none =>
          (place.cut [⟨.commentMultiline, lead + (place.rest.drop lead).length, stay.language,
            .empty⟩]).reader stay 0) := by
  rw [Reader.comment, cursor_reader, Cursor.rest?_stand]
  simp only [Option.bind_eq_bind, Option.bind_some, commentWidth?_bytewise htag]
  cases commentWidth? tag (place.rest.drop lead) with
  | some width =>
    simp only [Option.map_some, Cursor.moveBy_stand_bytes, seek_reader, goto_reader, emit_reader]
  | none =>
    have hend : place.rest.length = lead + (place.rest.drop lead).length := by
      rw [List.length_drop]
      omega
    simp only [Option.map_none, Cursor.advanceToEnd_stand, seek_reader, goto_reader, emit_reader,
      ← hend]

end Place

end LineLexer
