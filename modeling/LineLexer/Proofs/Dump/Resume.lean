import LineLexer.Proofs.Dump.Row
import LineLexer.Proofs.Link.Decoration
import LineLexer.Proofs.State.Storable
import LineLexer.Proofs.Text.Numeral

/-!
# Dumps that are cut and resumed

A dump passes nothing from line to line but the state, the number and the offset. The number and the
offset only move the rows (`dumpRows_moved`), and the state is in the last row, whose word gives it
back (`lastWord?_dumpRows`, `ofFlags_append_state`). So a document can be dumped in two parts, the
second one with one more flag, which is the word in the last row of the first one (`dump_resumes`).
-/

namespace LineLexer

/-! ## Rows further on -/

/-- A token a number of bytes further on. -/
def Token.shift (bytes : Nat) (token : Token) : Token :=
  { token with offset := bytes + token.offset }

/-- A token is placed a number of bytes further on if the spans start there. -/
theorem placeFrom_add (bytes offset : Nat) (spans : List Span) :
    placeFrom (bytes + offset) spans = (placeFrom offset spans).map (Token.shift bytes) := by
  induction spans generalizing offset with
  | nil => rfl
  | cons span spans ih =>
    rw [placeFrom, placeFrom, List.map_cons, Nat.add_assoc, ih]
    rfl

/-- The tokens of a line a number of bytes further on. -/
theorem tokens_tokenize_add (scope : LinkScope) (line : Text) (bytes offset : Nat)
    (state : ResumeState) :
    (tokenize scope line (bytes + offset) state).tokens =
      (tokenize scope line offset state).tokens.map (Token.shift bytes) :=
  placeFrom_add bytes offset _

namespace Row

/-- A row a number of lines and bytes further on. -/
def moved (lines bytes : Nat) : Row → Row
  | token line offset kind text flags => token (lines + line) (bytes + offset) kind text flags
  | finish line word state => finish (lines + line) word state

/-- The word of a row that ends a line. -/
def word? : Row → Option Text
  | token .. => none
  | finish _ word _ => some word

end Row

/-- The word in the last of the rows that end a line. -/
def lastWord? (rows : List Row) : Option Text :=
  (rows.filterMap Row.word?).getLast?

/-- The rows of lines that start further on are the same ones further on. -/
theorem dumpRows_moved (scope : LinkScope) (count bytes number offset : Nat) (state : ResumeState)
    (lines : List Text) :
    dumpRows scope (count + number) (bytes + offset) state lines =
      (dumpRows scope number offset state lines).map (Row.moved count bytes) := by
  induction lines generalizing number offset state with
  | nil => rfl
  | cons line lines ih =>
    have hfinish : (tokenize scope (trimTerminators line) (bytes + offset) state).finish =
        (tokenize scope (trimTerminators line) offset state).finish := rfl
    have hrows : (tokenize scope (trimTerminators line) (bytes + offset) state).rows
          (count + number) =
        ((tokenize scope (trimTerminators line) offset state).rows number).map
          (Row.moved count bytes) := by
      rw [Lexed.rows, Lexed.rows, tokens_tokenize_add, hfinish, List.map_append, List.map_map,
        List.map_map]
      rfl
    rw [dumpRows, dumpRows, List.map_append, hrows, hfinish, Nat.add_assoc, Nat.add_assoc, ih]

/-! ## The state at the end -/

/-- The state that the last of some lines ends in. -/
def finishAfter (state : ResumeState) (lines : List Text) : ResumeState :=
  lines.foldl (fun state line => (scan .start state (trimTerminators line)).finish) state

/-- The rows of lines in two parts: the second one starts after the first one. -/
theorem dumpRows_append (scope : LinkScope) (number offset : Nat) (state : ResumeState)
    (first rest : List Text) :
    dumpRows scope number offset state (first ++ rest) =
      dumpRows scope number offset state first ++
        dumpRows scope (number + first.length) (offset + byteLength first.flatten)
          (finishAfter state first) rest := by
  induction first generalizing number offset state with
  | nil => rfl
  | cons line first ih =>
    rw [List.cons_append, dumpRows, dumpRows, ih, List.append_assoc, List.length_cons,
      List.flatten_cons, byteLength_append, Nat.add_right_comm, ← Nat.add_assoc, ← Nat.add_assoc]
    rfl

/-- The last word in the rows of lines is that of the state which the last line ends in. -/
theorem lastWord?_dumpRows (scope : LinkScope) (number offset : Nat) (state : ResumeState)
    {lines : List Text} (h : lines ≠ []) :
    lastWord? (dumpRows scope number offset state lines) =
      some (wordText (finishAfter state lines).encode) := by
  obtain ⟨first, line, rfl⟩ := (List.eq_nil_or_concat' lines).resolve_left h
  have hfinish : finishAfter state (first ++ [line]) =
      (scan .start (finishAfter state first) (trimTerminators line)).finish := by
    rw [finishAfter, List.foldl_append]
    rfl
  rw [dumpRows_append, dumpRows, dumpRows, List.append_nil, Lexed.rows, lastWord?, hfinish,
    ← List.append_assoc, List.filterMap_append]
  exact List.getLast?_concat

/-- The state after lines has a word if the one before them has. -/
theorem finishAfter_ne {state : ResumeState} (h : state ≠ .script (.interpolation 0))
    (lines : List Text) : finishAfter state lines ≠ .script (.interpolation 0) := by
  induction lines generalizing state with
  | nil => exact h
  | cons line lines ih => exact ih (finish_tokenize_ne .off (trimTerminators line) 0 h)

/-! ## One more flag -/

/-- The state that is read in a flag is that of the word in it. -/
theorem readState_eq_ok {text : Text} {state : ResumeState} :
    readState text = .ok state ↔
      ∃ raw, readWord? text = some raw ∧ ResumeState.decode raw = .ok state := by
  rw [readState]
  cases readWord? text with
  | none => simp
  | some raw => cases hdecode : ResumeState.decode raw <;> simp [hdecode]

namespace DumpOptions

/-- Flags apply from the first to the last. -/
theorem applyAll_append (options : DumpOptions) (flags more : List Text) :
    options.applyAll (flags ++ more) = (options.applyAll flags).bind (·.applyAll more) := by
  induction flags generalizing options with
  | nil => rfl
  | cons flag flags ih =>
    rw [List.cons_append, applyAll, applyAll]
    cases options.apply flag with
    | error fault => rfl
    | ok next => exact ih next

/-- A flag keeps the start state or gives the one of a word. -/
theorem start_of_apply {options next : DumpOptions} {flag : Text}
    (h : options.apply flag = .ok next) :
    next.start = options.start ∨ ∃ raw, ResumeState.decode raw = .ok next.start := by
  unfold apply at h
  split at h
  · cases h
    exact .inl rfl
  split at h
  · cases h
    exact .inl rfl
  split at h
  · cases h
    exact .inl rfl
  split at h
  · split at h
    next state hstate =>
      cases h
      obtain ⟨raw, -, hdecode⟩ := readState_eq_ok.1 hstate
      exact .inr ⟨raw, hdecode⟩
    · cases h
  · cases h

/-- The start state that flags give has a word. -/
theorem start_ne_of_applyAll {options next : DumpOptions} {flags : List Text}
    (h : options.applyAll flags = .ok next) (hstart : options.start ≠ .script (.interpolation 0)) :
    next.start ≠ .script (.interpolation 0) := by
  have hword : ∀ {raw state}, ResumeState.decode raw = .ok state →
      state ≠ .script (.interpolation 0) := fun h =>
    ResumeState.mem_all.1 (ResumeState.decode_eq_ok.1 h).1
  induction flags generalizing options with
  | nil =>
    cases h
    exact hstart
  | cons flag flags ih =>
    rw [applyAll] at h
    cases happly : options.apply flag with
    | error fault =>
      rw [happly] at h
      cases h
    | ok after =>
      rw [happly] at h
      rcases start_of_apply happly with hsame | ⟨raw, hraw⟩
      · exact ih h (hsame ▸ hstart)
      · exact ih h (hword hraw)

/-- The flag with the word of a state gives that state as the start. -/
theorem apply_state (options : DumpOptions) {state : ResumeState}
    (h : state ≠ .script (.interpolation 0)) :
    options.apply (stateFlag ++ wordText state.encode) = .ok { options with start := state } := by
  have hread : readState (wordText state.encode) = .ok state :=
    readState_eq_ok.2 ⟨_, readWord?_wordText _, ResumeState.decode_encode_iff.2 h⟩
  have hother : ∀ flag : Text, ¬stateFlag <+: flag → stateFlag ++ wordText state.encode ≠ flag := by
    rintro _ hflag rfl
    exact hflag (List.prefix_append ..)
  rw [apply, if_neg (hother _ (by decide)), if_neg (hother _ (by decide)),
    if_neg (hother _ (by decide)), if_pos (by simp), List.drop_left, hread]

/-- One more flag with the word of a state replaces the start that the flags before it give. -/
theorem ofFlags_append_state {flags : List Text} {options : DumpOptions}
    (hflags : ofFlags flags = .ok options) {state : ResumeState}
    (hstate : state ≠ .script (.interpolation 0)) :
    ofFlags (flags ++ [stateFlag ++ wordText state.encode]) =
      .ok { options with start := state } := by
  rw [ofFlags] at hflags ⊢
  rw [applyAll_append, hflags, Except.bind, applyAll, apply_state options hstate]
  rfl

end DumpOptions

/-! ## Cut dumps -/

/-- A dump that is cut after a line feed is resumed from its last state: with one more flag, which
is the word in the last row of the first part, the dump of the rest has the rows that follow, only
with the line numbers and the offsets counted from the cut. -/
theorem dump_resumes {flags : List Text} {options : DumpOptions}
    (hflags : DumpOptions.ofFlags flags = .ok options) {first : Text}
    (hfirst : first.getLast? = some '\n') (rest : Text) :
    ∃ rows word resumed more,
      (readRows? (dump options first) = some rows ∧ writeRows rows = dump options first) ∧
      lastWord? rows = some word ∧
      DumpOptions.ofFlags (flags ++ [stateFlag ++ word]) = .ok resumed ∧
      (readRows? (dump resumed rest) = some more ∧ writeRows more = dump resumed rest) ∧
      dump options (first ++ rest) = dump options first ++
        writeRows (more.map (Row.moved (first.count '\n') (byteLength first))) := by
  have hlines : terminatedLines first ≠ [] := by
    intro hnil
    rw [terminatedLines_eq_nil.1 hnil] at hfirst
    cases hfirst
  have hstart : options.start ≠ .script (.interpolation 0) :=
    DumpOptions.start_ne_of_applyAll hflags (by decide)
  have hfinish := finishAfter_ne hstart (terminatedLines first)
  refine ⟨_, _, _, _, ⟨readRows?_dump options first, (dumpLines_eq ..).symm⟩,
    lastWord?_dumpRows _ _ _ _ hlines, DumpOptions.ofFlags_append_state hflags hfinish,
    ⟨readRows?_dump _ rest, (dumpLines_eq ..).symm⟩, ?_⟩
  rw [dump, dumpLines_eq, dump, dumpLines_eq, terminatedLines_append hfirst, dumpRows_append,
    flatten_terminatedLines, length_terminatedLines hfirst, Nat.zero_add, Nat.add_comm 1,
    ← dumpRows_moved, Nat.add_zero, writeRows, List.flatMap_append]
  rfl

/-- A document that is cut within a comment of a style sheet, after a carriage return. -/
theorem dump_resumes_of_comment :
    let flags := ["--links=strings".toList, "--state=0x1".toList, "--state=0".toList]
    let options : DumpOptions := ⟨.commentsAndStrings, .initial⟩
    let first := "<p>é\n<style>/* www.\r\n".toList
    let rest := "a */ p\x7b\x7d</style>\r\n\nb".toList
    (DumpOptions.ofFlags flags = .ok options ∧ first.getLast? = some '\n') ∧
      ∃ rows word resumed more,
        (readRows? (dump options first) = some rows ∧ writeRows rows = dump options first) ∧
        lastWord? rows = some word ∧
        DumpOptions.ofFlags (flags ++ [stateFlag ++ word]) = .ok resumed ∧
        (readRows? (dump resumed rest) = some more ∧ writeRows more = dump resumed rest) ∧
        dump options (first ++ rest) = dump options first ++
          writeRows (more.map (Row.moved (first.count '\n') (byteLength first))) := by
  intro flags options first rest
  have hflags : DumpOptions.ofFlags flags = .ok options := by decide
  have hfirst : first.getLast? = some '\n' := by decide
  exact ⟨⟨hflags, hfirst⟩, dump_resumes hflags hfirst rest⟩

end LineLexer
