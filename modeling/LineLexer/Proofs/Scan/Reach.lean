import LineLexer.Proofs.Embedding.Blocks
import LineLexer.Proofs.Partition
import LineLexer.Proofs.Span.Carve

/-!
# How far a scan gets

A scan can be stopped between any two of its moves. `Reaches` relates where it starts to where it
stands then: what it has cut off, the state, and the text that is left. What it cuts off from there
on, with the recollection that it has gathered, completes the whole scan (`Reaches.scan_eq`).
Conversely every span of a scan is carved by the move of some configuration that the scan reaches
(`exists_reaches`), so what is to be shown of all spans of a line is shown of those of one move.
-/

namespace LineLexer

/-- After some moves, a scan has cut off spans and goes on in a state with the text that is left. -/
inductive Reaches : Recall → ResumeState → Text → List Span → ResumeState → Text → Prop
  | here (past : Recall) (state : ResumeState) (text : Text) :
      Reaches past state text [] state text
  | move {past : Recall} {state next : ResumeState} {c : Char} {rest left : Text}
      {spans : List Span}
      (h : Reaches ((carve (step past state c rest).pieces (c :: rest)).foldl Recall.note past)
        (step past state c rest).next ((c :: rest).drop (step past state c rest).width)
        spans next left) :
      Reaches past state (c :: rest) (carve (step past state c rest).pieces (c :: rest) ++ spans)
        next left

section

variable {past : Recall} {state next : ResumeState} {text left : Text} {spans : List Span}

/-- A scan reaches what one move leads to. -/
theorem Reaches.step (past : Recall) (state : ResumeState) (c : Char) (rest : Text) :
    Reaches past state (c :: rest) (carve (step past state c rest).pieces (c :: rest))
      (step past state c rest).next ((c :: rest).drop (step past state c rest).width) := by
  have h := Reaches.move (Reaches.here ((carve (LineLexer.step past state c rest).pieces
    (c :: rest)).foldl Recall.note past) (LineLexer.step past state c rest).next
    ((c :: rest).drop (LineLexer.step past state c rest).width))
  rwa [List.append_nil] at h

/-- What is reached from where a scan gets to is reached by the scan. -/
theorem Reaches.trans {more : List Span} {last : ResumeState} {rest : Text}
    (h : Reaches past state text spans next left)
    (hmore : Reaches (spans.foldl Recall.note past) next left more last rest) :
    Reaches past state text (spans ++ more) last rest := by
  induction h with
  | here => exact hmore
  | move _ ih =>
    rw [List.foldl_append] at hmore
    rw [List.append_assoc]
    exact (ih hmore).move

/-- A scan goes on from what it reaches with what it recalls of the spans cut off so far. -/
theorem Reaches.scan_eq (h : Reaches past state text spans next left) :
    scan past state text =
      ⟨spans ++ (scan (spans.foldl Recall.note past) next left).spans,
        (scan (spans.foldl Recall.note past) next left).finish⟩ := by
  induction h with
  | here => rfl
  | move _ ih => simp only [scan_cons, ih, List.foldl_append, List.append_assoc]

/-- The spans cut off and the text that is left make up the text. -/
theorem Reaches.text_eq (h : Reaches past state text spans next left) :
    text = spelled spans ++ left := by
  have hs := spelled_scan past state text
  rw [h.scan_eq] at hs
  rw [← hs, spelled, List.flatMap_append]
  exact congrArg _ (spelled_scan _ _ left)

end

/-- Every span of a scan is carved by the move of a configuration that the scan reaches. -/
theorem exists_reaches (past : Recall) (state : ResumeState) (text : Text) (span : Span)
    (back : List Span) : ∀ front, (scan past state text).spans = front ++ span :: back →
      ∃ earlier first later here c rest,
        Reaches past state text earlier here (c :: rest) ∧
          carve (step (earlier.foldl Recall.note past) here c rest).pieces (c :: rest) =
            first ++ span :: later ∧
          front = earlier ++ first := by
  fun_induction scan past state text with
  | case1 =>
    intro front h
    have hne : front ++ span :: back ≠ [] := by simp
    exact absurd h.symm hne
  | case2 past state c rest move spans more ih =>
    intro front h
    rcases append_eq_append_cons h with ⟨mid, rfl, hmore⟩ | ⟨mid, hspans, -⟩
    · obtain ⟨earlier, first, later, here, d, tail, hreach, hcarve, rfl⟩ := ih _ hmore
      refine ⟨spans ++ earlier, first, later, here, d, tail, hreach.move, ?_, ?_⟩
      · rw [List.foldl_append]
        exact hcarve
      · rw [List.append_assoc]
    · exact ⟨[], front, mid, state, c, rest, .here .., hspans, rfl⟩

/-- A scan whose first move takes one piece. -/
theorem scan_cons_singleton {past : Recall} {state after : ResumeState} {c : Char} {rest : Text}
    {kind : Kind} {language : Language} {flags : Flags} {width : Nat} (hwidth : 0 < width)
    (hmove : step past state c rest = ⟨[⟨kind, width, language, flags⟩], after⟩) :
    scan past state (c :: rest) =
      ⟨⟨kind, language, (c :: rest).take width, flags⟩ ::
          (scan (past.note ⟨kind, language, (c :: rest).take width, flags⟩) after
            ((c :: rest).drop width)).spans,
        (scan (past.note ⟨kind, language, (c :: rest).take width, flags⟩) after
          ((c :: rest).drop width)).finish⟩ := by
  have hcarve : carve [⟨kind, width, language, flags⟩] (c :: rest) =
      [⟨kind, language, (c :: rest).take width, flags⟩] :=
    carve_singleton hwidth (List.cons_ne_nil c rest)
  rw [scan_cons, hmove]
  simp only [hcarve, Move.width_singleton]
  rfl

/-! ## Scanning for a number of moves -/

/-- Where a scan stands after some moves. -/
structure Halt where
  spans : List Span
  next : ResumeState
  left : Text
  deriving DecidableEq, Repr

/-- Scans for a number of moves. -/
def haltAfter : Nat → Recall → ResumeState → Text → Halt
  | 0, _, state, text => ⟨[], state, text⟩
  | _ + 1, _, state, [] => ⟨[], state, []⟩
  | moves + 1, past, state, c :: rest =>
    let move := step past state c rest
    let spans := carve move.pieces (c :: rest)
    let halt := haltAfter moves (spans.foldl Recall.note past) move.next
      ((c :: rest).drop move.width)
    { halt with spans := spans ++ halt.spans }

/-- A scan reaches where it stands after any number of moves. -/
theorem reaches_haltAfter (moves : Nat) (past : Recall) (state : ResumeState) (text : Text) :
    Reaches past state text (haltAfter moves past state text).spans
      (haltAfter moves past state text).next (haltAfter moves past state text).left := by
  fun_induction haltAfter moves past state text with
  | case1 past state text => exact .here ..
  | case2 past state => exact .here ..
  | case3 past state moves c rest move spans halt ih => exact ih.move

/-- A scan that stands somewhere after a number of moves reaches it. -/
theorem reaches_of_haltAfter_eq (moves : Nat) {past : Recall} {state next : ResumeState}
    {text left : Text} {spans : List Span}
    (h : haltAfter moves past state text = ⟨spans, next, left⟩) :
    Reaches past state text spans next left := by
  have hreach := reaches_haltAfter moves past state text
  rwa [h] at hreach

end LineLexer
