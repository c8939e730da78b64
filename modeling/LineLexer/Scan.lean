import LineLexer.Grammar.Markup
import LineLexer.Grammar.Script
import LineLexer.Grammar.Style
import LineLexer.Span

/-!
# Scanning a line

A line is scanned move by move: the state says which grammar answers, the grammar's move is carved
off, and the rest of the line is scanned in the next state. Two questions of the grammars look back
at what the line held before: whether a word in a start tag follows an equals sign, and whether a
slash in a script follows a value. `Recall` keeps just that much.

Scanning ends because every move goes forward (`step_progresses`), and the spans spell the line
(`spelled_scan`).
-/

namespace LineLexer

/-- What a scan recalls of the line so far. -/
structure Recall where
  /-- The kind of the last span that is not blank. -/
  solid : Option Kind
  /-- The last span of a script that is neither blank nor a comment. -/
  script : Option (Kind × Text)
  deriving DecidableEq, Repr

namespace Recall

/-- At the start of a line nothing is recalled. -/
def start : Recall := ⟨none, none⟩

/-- Takes note of a span. -/
def note (past : Recall) (span : Span) : Recall :=
  if span.kind = .whitespace then past
  else if span.language = .script && !span.kind.isComment then
    ⟨some span.kind, some (span.kind, span.text)⟩
  else ⟨some span.kind, past.script⟩

end Recall

/-- The move in a state at a text that is not empty. -/
def step (past : Recall) (state : ResumeState) (c : Char) (rest : Text) : Move :=
  match state with
  -- Only markup and scripts look back, and each at its own recollection.
  | .markup state => Markup.move (past.solid == some .operator) state c rest
  | .style state => Style.move state c rest
  | .script state => Script.move (Script.regexMayFollow past.script) state c rest

/-- Every move goes forward. -/
theorem step_progresses (past : Recall) (state : ResumeState) (c : Char) (rest : Text) :
    (step past state c rest).Progresses state := by
  cases state with
  | markup state => exact Markup.move_progresses _ state c rest
  | style state => exact Style.move_progresses state c rest
  | script state => exact Script.move_progresses _ state c rest

/-- There is slack for at most one move that takes nothing. -/
theorem ResumeState.slack_le_one (state : ResumeState) : state.slack ≤ 1 := by
  unfold slack
  split <;> decide

/-- After a move, less of the line or less slack is left. -/
theorem Move.Progresses.measure_lt {move : Move} {state : ResumeState} (h : move.Progresses state)
    (c : Char) (rest : Text) :
    2 * ((c :: rest).drop move.width).length + move.next.slack
      < 2 * (c :: rest).length + state.slack := by
  have := move.next.slack_le_one
  simp only [List.length_drop, List.length_cons]
  rcases h with h | h <;> omega

/-- The spans of a line and the state at its end. -/
structure Scanned where
  spans : List Span
  finish : ResumeState
  deriving DecidableEq, Repr

/-- Scans the rest of a line. -/
def scan (past : Recall) (state : ResumeState) : Text → Scanned
  | [] => ⟨[], state⟩
  | c :: rest =>
    let move := step past state c rest
    let spans := carve move.pieces (c :: rest)
    let more := scan (spans.foldl Recall.note past) move.next ((c :: rest).drop move.width)
    ⟨spans ++ more.spans, more.finish⟩
termination_by text => 2 * text.length + state.slack
decreasing_by exact (step_progresses past state c rest).measure_lt c rest

/-- Scanning an empty rest keeps the state. -/
@[simp] theorem scan_nil (past : Recall) (state : ResumeState) :
    scan past state [] = ⟨[], state⟩ := by
  rw [scan]

/-- Scanning a rest that is not empty takes one move and scans what the move leaves. -/
theorem scan_cons (past : Recall) (state : ResumeState) (c : Char) (rest : Text) :
    scan past state (c :: rest) =
      let move := step past state c rest
      let spans := carve move.pieces (c :: rest)
      let more := scan (spans.foldl Recall.note past) move.next ((c :: rest).drop move.width)
      ⟨spans ++ more.spans, more.finish⟩ := by
  rw [scan]

/-- The spans of a scan spell the text. -/
theorem spelled_scan (past : Recall) (state : ResumeState) (text : Text) :
    spelled (scan past state text).spans = text := by
  fun_induction scan past state text with
  | case1 => rfl
  | case2 past state c rest move spans more ih =>
    simp only [spelled, List.flatMap_append]
    rw [show List.flatMap Span.text spans = spelled spans from rfl, spelled_carve]
    exact (congrArg _ ih).trans (List.take_append_drop _ _)

/-- No span of a scan is empty. -/
theorem text_ne_nil_of_mem_scan {past : Recall} {state : ResumeState} {text : Text} {span : Span}
    (h : span ∈ (scan past state text).spans) : span.text ≠ [] := by
  fun_induction scan past state text with
  | case1 => cases h
  | case2 past state c rest move spans more ih =>
    rcases List.mem_append.1 h with h | h
    · exact text_ne_nil_of_mem_carve h
    · exact ih h

end LineLexer
