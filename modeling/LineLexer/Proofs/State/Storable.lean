import LineLexer.Proofs.Document
import LineLexer.Proofs.LineBreak.Scan
import LineLexer.Proofs.Scan.Language
import LineLexer.Proofs.State.Codec

/-!
# States at the end of a line can be stored

The interpolation without an open brace is the one state that has no word. It is never reached:
opening a brace leaves a depth above zero even where the depth is the largest that is recorded, and
a closing brace that would leave none ends the interpolation (`openBraces_interpolationBody_ne`). So
a move from a state that can be stored leads to such a state (`step_next_ne`), and so does the scan
of a line. Main statement: `decode_encode_finish`, for the lines of a document from any state that a
word gives.
-/

namespace LineLexer

/-! ## Interpolations -/

/-- One more open brace is at least one. -/
theorem Depth.nest_ne_zero (depth : Depth) : depth.nest ≠ 0 := by
  unfold Depth.nest
  split
  next h => exact fun h0 => Nat.succ_ne_zero depth.val (congrArg Fin.val h0)
  next h =>
    -- The depth is the largest one, at which the count stays.
    rintro rfl
    exact h (by decide)

namespace Script

/-- An interpolation with an open brace leaves one open, or it closes. -/
theorem openBraces_interpolationBody_ne {depth : Depth} (h : depth ≠ 0) (text : Text) :
    (interpolationBody depth text).openBraces ≠ some 0 := by
  induction text generalizing depth with
  | nil => simpa [interpolationBody] using h
  | cons c rest ih =>
    rw [interpolationBody]
    split
    · exact ih depth.nest_ne_zero
    split
    · split
      · simp
      next hopen => exact ih fun h0 => hopen (congrArg Fin.val h0)
    · exact ih h

/-- After an interpolation with an open brace comes template text or such an interpolation. -/
theorem afterInterpolation_ne {depth : Depth} (h : depth ≠ 0) (text : Text) :
    afterInterpolation (interpolationBody depth text).openBraces ≠ .interpolation 0 := by
  have hopen := openBraces_interpolationBody_ne h text
  cases hbraces : (interpolationBody depth text).openBraces with
  | none => simp [afterInterpolation]
  | some left =>
    rw [hbraces] at hopen
    simpa [afterInterpolation] using hopen

/-- A template goes on as one, with at least one open brace if in an interpolation, or as code. -/
theorem template_next_ne (valid : Bool) (lead : Nat) (text : Text) :
    (template valid lead text).next ≠ .script (.interpolation 0) := by
  simp only [template]
  split
  · simp [one]
  · simp [one]
  · simpa using afterInterpolation_ne (show Depth.one ≠ 0 by decide) _

/-- After a slash comes a comment or code. -/
theorem slash_next_ne (regexAllowed : Bool) (rest : Text) :
    (slash regexAllowed rest).next ≠ .script (.interpolation 0) := by
  unfold slash
  split
  · simp [lineComment, one]
  split
  · unfold comment
    split <;> simp [one]
  repeat' split
  all_goals simp [operator, one]

/-- After plain code comes code. -/
theorem plainCode_next_ne (c : Char) (rest : Text) :
    (plainCode c rest).next ≠ .script (.interpolation 0) := by
  unfold plainCode
  repeat' split
  all_goals simp [number, operator, one]

/-- Code goes on in a state that has a word. -/
theorem code_next_ne (regexAllowed : Bool) (c : Char) (rest : Text) :
    (code regexAllowed c rest).next ≠ .script (.interpolation 0) := by
  unfold code
  split
  · simp [one]
  split
  · simp [closeElement]
  split
  · exact slash_next_ne regexAllowed rest
  split
  · exact template_next_ne true 1 rest
  split
  · simp only [literal, one]
    split <;> simp
  · exact plainCode_next_ne c rest

/-- A move of a script from a state that has a word leads to one that has. -/
theorem move_next_ne (regexAllowed : Bool) {state : ScriptState} (h : state ≠ .interpolation 0)
    (c : Char) (rest : Text) :
    (move regexAllowed state c rest).next ≠ .script (.interpolation 0) := by
  cases state with
  | code => exact code_next_ne regexAllowed c rest
  | comment =>
    simp only [move, comment]
    split <;> simp [one]
  | literal quote valid =>
    simp only [move, literal, one]
    split <;> simp
  | template valid => exact template_next_ne _ _ _
  | interpolation depth =>
    have hdepth : depth ≠ 0 := fun h0 => h (congrArg _ h0)
    simpa [move, interpolation, one] using afterInterpolation_ne hdepth (c :: rest)

end Script

/-! ## Moves and lines -/

/-- A move from a state that has a word leads to one that has. -/
theorem step_next_ne (past : Recall) {state : ResumeState} (h : state ≠ .script (.interpolation 0))
    (c : Char) (rest : Text) : (step past state c rest).next ≠ .script (.interpolation 0) := by
  cases state with
  | markup state => exact (Markup.move_isBeforeScript _ state c rest).ne_interpolation 0
  | style state => exact (Style.move_isBeforeScript state c rest).ne_interpolation 0
  | script state => exact Script.move_next_ne _ (fun h0 => h (congrArg _ h0)) c rest

/-- A line that starts in a state that has a word ends in one that has. -/
theorem finish_tokenize_ne (scope : LinkScope) (line : Text) (offset : Nat) {state : ResumeState}
    (h : state ≠ .script (.interpolation 0)) :
    (tokenize scope line offset state).finish ≠ .script (.interpolation 0) :=
  host_finish (fun state => state ≠ .script (.interpolation 0)) (fun _ => True)
    (fun past _ c rest hstate _ => step_next_ne past hstate c rest) .start state line h
    fun _ _ => trivial

/-- A state has a word exactly if it is not the interpolation without an open brace. -/
theorem ResumeState.decode_encode_iff {state : ResumeState} :
    decode state.encode = .ok state ↔ state ≠ .script (.interpolation 0) := by
  rw [decode_eq_ok, mem_all, and_iff_left rfl]

/-- The lines of a document that starts in a state of a word all end in states that their words
give back. None of them is the interpolation without an open brace, whatever braces the lines hold
and however deep they nest. -/
theorem decode_encode_finish (session : Session) {raw : UInt32}
    (h : ResumeState.decode raw = .ok session.state) (lines : List Text) :
    ∀ lexed ∈ session.lex lines,
      ResumeState.decode lexed.finish.encode = .ok lexed.finish ∧
        lexed.finish ≠ .script (.interpolation 0) := by
  have hstart := ResumeState.mem_all.1 (ResumeState.decode_eq_ok.1 h).1
  clear h
  -- The state that each line starts in has a word.
  induction lines generalizing session with
  | nil => simp [Session.lex]
  | cons line lines ih =>
    have hline : (session.line line).1.finish ≠ .script (.interpolation 0) :=
      finish_tokenize_ne session.scope line session.offset hstart
    intro lexed hlexed
    rcases List.mem_cons.1 hlexed with rfl | hlexed
    · exact ⟨ResumeState.decode_encode_iff.2 hline, hline⟩
    · exact ih (session.line line).2 hline lexed hlexed

/-- Braces that open past the largest depth, over lines, and close again. -/
theorem decode_encode_finish_of_braces :
    let session : Session := ⟨.comments, 0, .script (.interpolation .max)⟩
    let lines := ["\x7b\x7b".toList, List.replicate 300 '\x7d', "$\x7b".toList]
    ResumeState.decode 0xff88 = .ok session.state ∧
      ∀ lexed ∈ session.lex lines,
        ResumeState.decode lexed.finish.encode = .ok lexed.finish ∧
          lexed.finish ≠ .script (.interpolation 0) := by
  intro session lines
  have hword : ResumeState.decode 0xff88 = .ok session.state := by decide
  exact ⟨hword, decode_encode_finish session hword lines⟩

end LineLexer
