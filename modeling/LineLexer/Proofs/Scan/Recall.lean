import LineLexer.Proofs.Scan.Reach

/-!
# What a scan makes of its recollection

A scan asks two questions of what it recalls: whether the last solid span is an operator, and
whether a regular expression may follow the last span of code. Scans whose recollections answer both
alike are equal (`scan_congr`). What is recalled after some spans is read off the last of them that
are solid and that are code, and only where there are none does the older recollection show
(`solid_foldl_note`, `script_foldl_note`).
-/

namespace LineLexer

/-- Spans that are not blank. -/
def Span.isSolid (span : Span) : Bool :=
  span.kind != .whitespace

/-- Spans of a script that are neither blank nor a comment. -/
def Span.isCode (span : Span) : Bool :=
  span.language == .script && span.isSolid && !span.kind.isComment

/-- Code is solid. -/
theorem Span.isSolid_of_isCode {span : Span} (h : span.isCode = true) : span.isSolid = true := by
  simp only [isCode, Bool.and_eq_true] at h
  exact h.1.2

namespace Recall

/-- Two recollections that answer alike what a scan asks. -/
structure Alike (past other : Recall) : Prop where
  operator : (past.solid == some .operator) = (other.solid == some .operator)
  regex : Script.regexMayFollow past.script = Script.regexMayFollow other.script

/-! ## What is recalled of spans -/

/-- A solid span is recalled as such, and a blank one leaves what was. -/
theorem solid_note (past : Recall) (span : Span) :
    (past.note span).solid = if span.isSolid then some span.kind else past.solid := by
  unfold note
  by_cases h : span.kind = .whitespace
  · simp [h, Span.isSolid]
  · simp only [h, Span.isSolid, if_false, bne_iff_ne, ne_eq, not_false_eq_true, if_true]
    split <;> rfl

/-- A span of code is recalled as such, and any other leaves what was. -/
theorem script_note (past : Recall) (span : Span) :
    (past.note span).script = if span.isCode then some (span.kind, span.text) else past.script := by
  unfold note
  by_cases h : span.kind = .whitespace
  · simp [h, Span.isCode, Span.isSolid]
  · have hsolid : span.isSolid = true := by simp [Span.isSolid, h]
    have hcode : span.isCode = (span.language = .script && !span.kind.isComment) := by
      cases hl : span.language <;> simp [Span.isCode, hsolid, hl]
    rw [if_neg h, hcode]
    split <;> rfl

/-- Of spans, the kind of the last solid one is recalled. -/
theorem solid_foldl_note (past : Recall) (spans : List Span) :
    (spans.foldl note past).solid =
      ((spans.filter Span.isSolid).getLast?.map Span.kind).or past.solid := by
  induction spans generalizing past with
  | nil => rfl
  | cons span spans ih =>
    rw [List.foldl_cons, ih, solid_note, List.filter_cons]
    split
    next h => cases hl : (spans.filter Span.isSolid).getLast? <;> simp [List.getLast?_cons, hl]
    next h => rfl

/-- Of spans, the last one of code is recalled. -/
theorem script_foldl_note (past : Recall) (spans : List Span) :
    (spans.foldl note past).script =
      ((spans.filter Span.isCode).getLast?.map fun span => (span.kind, span.text)).or
        past.script := by
  induction spans generalizing past with
  | nil => rfl
  | cons span spans ih =>
    rw [List.foldl_cons, ih, script_note, List.filter_cons]
    split
    next h => cases hl : (spans.filter Span.isCode).getLast? <;> simp [List.getLast?_cons, hl]
    next h => rfl

/-- Spans that are no code leave the code that was recalled before. -/
theorem script_foldl_note_of_forall {spans : List Span} (h : ∀ span ∈ spans, span.isCode = false)
    (past : Recall) : (spans.foldl note past).script = past.script := by
  have hnil : spans.filter Span.isCode = [] := List.filter_eq_nil_iff.2 fun span hspan => by
    simp [h span hspan]
  rw [script_foldl_note, hnil]
  rfl

/-- After a solid span, what was recalled of solid spans before no longer matters. -/
theorem solid_foldl_note_eq {spans : List Span} (h : spans.any Span.isSolid = true)
    (past other : Recall) : (spans.foldl note past).solid = (spans.foldl note other).solid := by
  have hne : spans.filter Span.isSolid ≠ [] := by
    rwa [Ne, List.filter_eq_nil_iff, ← List.any_eq_false, Bool.not_eq_false]
  rw [solid_foldl_note, solid_foldl_note, List.getLast?_eq_some_getLast hne]
  rfl

/-- After a span of code, what was recalled of code before no longer matters. -/
theorem script_foldl_note_eq {spans : List Span} (h : spans.any Span.isCode = true)
    (past other : Recall) : (spans.foldl note past).script = (spans.foldl note other).script := by
  have hne : spans.filter Span.isCode ≠ [] := by
    rwa [Ne, List.filter_eq_nil_iff, ← List.any_eq_false, Bool.not_eq_false]
  rw [script_foldl_note, script_foldl_note, List.getLast?_eq_some_getLast hne]
  rfl

/-- What is answered on operators stays alike after more spans. -/
theorem operator_foldl_note {past other : Recall}
    (h : (past.solid == some .operator) = (other.solid == some .operator)) (spans : List Span) :
    ((spans.foldl note past).solid == some .operator) =
      ((spans.foldl note other).solid == some .operator) := by
  rw [solid_foldl_note, solid_foldl_note]
  cases (spans.filter Span.isSolid).getLast? with
  | none => exact h
  | some span => rfl

/-- After a span of code, any two recollections answer alike. -/
theorem alike_of_code {spans : List Span} (h : spans.any Span.isCode = true)
    (past other : Recall) : (spans.foldl note past).Alike (spans.foldl note other) := by
  have hsolid : spans.any Span.isSolid = true := by
    obtain ⟨span, hmem, hcode⟩ := List.any_eq_true.1 h
    exact List.any_eq_true.2 ⟨span, hmem, Span.isSolid_of_isCode hcode⟩
  constructor
  · rw [solid_foldl_note_eq hsolid past other]
  · rw [script_foldl_note_eq h past other]

/-- After a solid span, recollections of the same code answer alike. -/
theorem alike_of_solid {past other : Recall} (hscript : past.script = other.script)
    {span : Span} (h : span.isSolid = true) : (past.note span).Alike (other.note span) := by
  constructor
  · rw [solid_note, solid_note, if_pos h, if_pos h]
  · rw [script_note, script_note, hscript]

namespace Alike

variable {past other : Recall}

/-- Recollections that answer alike do so after more spans. -/
theorem foldl_note (h : past.Alike other) (spans : List Span) :
    (spans.foldl Recall.note past).Alike (spans.foldl Recall.note other) := by
  refine ⟨operator_foldl_note h.operator spans, ?_⟩
  rw [script_foldl_note, script_foldl_note]
  cases (spans.filter Span.isCode).getLast? with
  | none => exact h.regex
  | some span => rfl

end Alike

end Recall

/-! ## Scans with different recollections -/

/-- A move depends on what is recalled only by the two answers. -/
theorem step_congr {past other : Recall} (h : past.Alike other) (state : ResumeState) (c : Char)
    (rest : Text) : step past state c rest = step other state c rest := by
  cases state with
  | markup state => simp only [step, h.operator]
  | style state => rfl
  | script state => simp only [step, h.regex]

/-- A scan depends on what is recalled only by the two answers. -/
theorem scan_congr (past : Recall) (state : ResumeState) (text : Text) :
    ∀ other, past.Alike other → scan past state text = scan other state text := by
  fun_induction scan past state text with
  | case1 =>
    intro other _
    rw [scan_nil]
  | case2 past state c rest move spans more ih =>
    intro other h
    have hmove : step past state c rest = step other state c rest := step_congr h state c rest
    have hmore : more = scan (spans.foldl Recall.note other) move.next
        ((c :: rest).drop move.width) := ih _ (h.foldl_note spans)
    rw [scan_cons, ← hmove, hmore]

end LineLexer
