import LineLexer.Grammar.Script

/-!
# Operators and regular expressions among the moves of scripts

What the move at a place of a script can be, as far as operators and regular expressions go
(`Script.codeMove_move`). Both are moves of their own, in code only. No other move takes a piece of
either kind, not even a template, which takes the braces of an interpolation along.
-/

namespace LineLexer.Script

/-- The move that a state of a script makes, with or without leave for a regular expression. -/
inductive CodeMove (regexAllowed : Bool) (state : ScriptState) (c : Char) (rest : Text) :
    Move → Prop
  | operator (hcode : state = .code) (hchar : isOperatorChar c = true) :
      CodeMove regexAllowed state c rest (operator (c :: rest))
  | regex {width : Nat} (hcode : state = .code) (hallowed : regexAllowed = true)
      (hslash : c = '/') (hwidth : regexWidth? rest = some width) :
      CodeMove regexAllowed state c rest (one .regex width .code)
  | other {move : Move} (hkinds : ∀ piece ∈ move.pieces, piece.kind ∉ [Kind.operator, .regex]) :
      CodeMove regexAllowed state c rest move

section

variable {regexAllowed : Bool} {state : ScriptState} {c : Char} {rest : Text}

/-- One piece of another kind. -/
theorem CodeMove.of_one {kind : Kind} {width : Nat} {next : ScriptState}
    (hkind : kind ∉ [Kind.operator, .regex]) :
    CodeMove regexAllowed state c rest (one kind width next) :=
  .other fun piece hpiece => by
    obtain rfl := List.mem_singleton.1 hpiece
    exact hkind

/-- A comment is neither an operator nor a regular expression. -/
theorem codeMove_comment (lead : Nat) (body : Text) :
    CodeMove regexAllowed state c rest (comment lead body) := by
  unfold comment
  split <;> exact .of_one (by decide)

/-- A quoted literal is neither, whether it passes its checks or not. -/
theorem codeMove_literal (quote : Quote) (valid : Bool) (lead : Nat) (text : Text) :
    CodeMove regexAllowed state c rest (literal quote valid lead text) := by
  refine .of_one ?_
  split <;> cases quote <;> decide

/-- A template is neither, and so is the interpolation that ends its text. -/
theorem codeMove_template (valid : Bool) (lead : Nat) (text : Text) :
    CodeMove regexAllowed state c rest (template valid lead text) := by
  have hkind : ∀ valid, templateKind valid ∉ [Kind.operator, .regex] := by decide
  simp only [template]
  split
  · exact .of_one (hkind _)
  · exact .of_one (hkind _)
  · refine .other fun piece hpiece => ?_
    simp only [List.mem_cons, List.not_mem_nil, or_false] at hpiece
    rcases hpiece with rfl | rfl
    · exact hkind _
    · simp [Script.piece]

/-- A slash that starts neither a comment nor a regular expression is an operator. -/
theorem codeMove_slash (rest : Text) :
    CodeMove regexAllowed .code '/' rest (slash regexAllowed rest) := by
  have hoperator : CodeMove regexAllowed .code '/' rest (operator ('/' :: rest)) :=
    .operator rfl (by decide)
  unfold slash
  split
  · exact .of_one (by decide)
  split
  · exact codeMove_comment ..
  split
  next hallowed =>
    split
    next width hwidth => exact .regex rfl hallowed rfl hwidth
    next => exact hoperator
  next => exact hoperator

/-- Of the rest of code, only what an operator character starts is an operator. -/
theorem codeMove_plainCode (c : Char) (rest : Text) :
    CodeMove regexAllowed .code c rest (plainCode c rest) := by
  unfold plainCode
  split
  · obtain ⟨kind, width, hkind, hnumber⟩ := exists_number_eq c rest
    have hkinds : ∀ kind ∈ [Kind.literalDecimalInt, .literalHexInt, .literalFloat, .errorNumber],
        kind ∉ [Kind.operator, .regex] := by
      decide
    rw [hnumber]
    exact .of_one (hkinds kind hkind)
  split
  · exact .of_one (by decide)
  split
  · exact .of_one (by decide)
  split
  · have hkinds : ∀ kind ∈ [Kind.identifier, .reservedWord, .reservedWord2, .dataType,
        .literalBoolean, .functionName], kind ∉ [Kind.operator, .regex] := by
      decide
    exact .of_one (hkinds _ (Kind.ofWord_mem _))
  split
  next hchar => exact .operator rfl hchar
  next => exact .of_one (by decide)

/-- Every move of a script is an operator, a regular expression, or of other kinds alone. -/
theorem codeMove_move (regexAllowed : Bool) (state : ScriptState) (c : Char) (rest : Text) :
    CodeMove regexAllowed state c rest (move regexAllowed state c rest) := by
  cases state with
  | comment => exact codeMove_comment ..
  | literal quote valid => exact codeMove_literal ..
  | template valid => exact codeMove_template ..
  | interpolation depth => exact .of_one (by decide)
  | code =>
    simp only [move, code]
    split
    · exact .of_one (by decide)
    split
    · refine .other fun piece hpiece => ?_
      simp only [closeElement, List.mem_cons, List.not_mem_nil, or_false] at hpiece
      rcases hpiece with rfl | rfl <;> decide
    split
    next hslash =>
      rw [hslash]
      exact codeMove_slash rest
    split
    · exact codeMove_template ..
    split
    · exact codeMove_literal ..
    · exact codeMove_plainCode c rest

/-- A piece that is an operator is all that its move takes. -/
theorem eq_operator_of_mem_move {piece : Piece}
    (h : piece ∈ (move regexAllowed state c rest).pieces) (hkind : piece.kind = .operator) :
    move regexAllowed state c rest = operator (c :: rest) ∧ isOperatorChar c = true := by
  have hmove := codeMove_move regexAllowed state c rest
  generalize move regexAllowed state c rest = made at h hmove ⊢
  cases hmove with
  | operator hcode hchar => exact ⟨rfl, hchar⟩
  | regex =>
    obtain rfl := List.mem_singleton.1 h
    cases hkind
  | other hkinds => exact absurd (by simp [hkind]) (hkinds piece h)

/-- Without leave, no piece of a script is a regular expression. -/
theorem ne_regex_of_mem_move {piece : Piece}
    (h : piece ∈ (move false state c rest).pieces) : piece.kind ≠ .regex := by
  have hmove := codeMove_move false state c rest
  generalize move false state c rest = made at h hmove
  cases hmove with
  | operator hcode hchar =>
    obtain rfl := List.mem_singleton.1 h
    simp [Script.piece]
  | regex hcode hallowed => cases hallowed
  | other hkinds =>
    intro hkind
    exact absurd (by simp [hkind]) (hkinds piece h)

end

end LineLexer.Script
