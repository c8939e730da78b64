import LineLexer.Grammar.Script.Literal

/-!
# Templates

A template alternates between text, which has the escapes of a literal, and interpolations, which
are read only for their braces. Both may go on over lines.
-/

namespace LineLexer.Script

/-- How the text of a template ends on a line. -/
inductive TemplateEnd where
  /-- At its closing backquote. -/
  | closed
  /-- At the end of the line. -/
  | unclosed
  /-- Before an interpolation. -/
  | interpolated
  deriving DecidableEq, Repr

/-- The text of a template on a line. -/
structure TemplateBody where
  width : Nat
  valid : Bool
  ending : TemplateEnd
  deriving DecidableEq, Repr

/-- A template text with more characters before it. -/
def TemplateBody.after (lead : Nat) (body : TemplateBody) : TemplateBody :=
  { body with width := lead + body.width }

/-- The template text at the head of a text, `valid` so far. -/
def templateBody (valid : Bool) : Text → TemplateBody
  | [] => ⟨0, valid, .unclosed⟩
  | c :: rest =>
    if c = '`' then ⟨1, valid, .closed⟩
    else if c = '\\' then
      (templateBody (valid && (escape rest).2) (rest.drop (escape rest).1)).after
        (1 + (escape rest).1)
    -- A dollar sign is text unless a brace follows.
    else if c = '$' && rest.head? = some '{' then ⟨0, valid, .interpolated⟩
    else (templateBody valid rest).after 1
termination_by text => text.length
decreasing_by
  · simp only [List.length_drop, List.length_cons]
    omega
  · exact Nat.lt_succ_self _

/-! ## Interpolations -/

/-- An interpolation on a line: its width, and the depth of the braces it leaves open, none if it
closes. -/
structure InterpolationBody where
  width : Nat
  openBraces : Option Depth
  deriving DecidableEq, Repr

/-- An interpolation with more characters before it. -/
def InterpolationBody.after (lead : Nat) (body : InterpolationBody) : InterpolationBody :=
  { body with width := lead + body.width }

/-- The interpolation at the head of a text, with a number of open braces so far. The brace that
leaves none open closes it. -/
def interpolationBody (depth : Depth) : Text → InterpolationBody
  | [] => ⟨0, some depth⟩
  | c :: rest =>
    if c = '{' then (interpolationBody depth.nest rest).after 1
    else if c = '}' then
      if depth.unnest.val = 0 then ⟨1, none⟩ else (interpolationBody depth.unnest rest).after 1
    else (interpolationBody depth rest).after 1

/-- The state after an interpolation: the text of its template, or the interpolation itself. -/
def afterInterpolation : Option Depth → ScriptState
  | none => .template true
  | some depth => .interpolation depth

/-- Takes an interpolation that goes on from the line before. -/
def interpolation (depth : Depth) (text : Text) : Move :=
  let body := interpolationBody depth text
  one .variableName body.width (afterInterpolation body.openBraces)

/-! ## Text with the interpolation that ends it -/

/-- The kind of template text. -/
def templateKind (valid : Bool) : Kind :=
  if valid then .literalBackquote else .errorString

/-- Takes template text, after `lead` characters that open it, and the interpolation that ends it,
if one does. -/
def template (valid : Bool) (lead : Nat) (text : Text) : Move :=
  let body := templateBody valid text
  match body.ending with
  | .closed => one (templateKind body.valid) (lead + body.width) .code
  | .unclosed => one (templateKind body.valid) (lead + body.width) (.template body.valid)
  | .interpolated =>
    let inner := interpolationBody .one (text.drop (body.width + 2))
    ⟨[piece (templateKind body.valid) (lead + body.width), piece .variableName (2 + inner.width)],
      .script (afterInterpolation inner.openBraces)⟩

/-! ## What is taken is not empty -/

/-- Template text at a text that is not empty has a width, unless an interpolation starts there. -/
theorem templateBody_width_pos (valid : Bool) (c : Char) (rest : Text) :
    (templateBody valid (c :: rest)).ending = .interpolated ∨
      0 < (templateBody valid (c :: rest)).width := by
  rw [templateBody]
  repeat' split
  · exact .inr Nat.one_pos
  · exact .inr (by simp only [TemplateBody.after]; omega)
  · exact .inl rfl
  · exact .inr (by simp only [TemplateBody.after]; omega)

/-- A template is not empty. -/
theorem template_width_pos (valid : Bool) (lead : Nat) {text : Text}
    (h : lead = 0 → text ≠ []) : 0 < (template valid lead text).width := by
  have hw : (templateBody valid text).ending = .interpolated ∨
      0 < lead + (templateBody valid text).width := by
    cases text with
    | nil =>
      have : lead ≠ 0 := fun h0 => h h0 rfl
      exact .inr (by omega)
    | cons c rest =>
      rcases templateBody_width_pos valid c rest with hi | hw
      · exact .inl hi
      · exact .inr (by omega)
  simp only [template]
  split
  next he =>
    simp only [he, reduceCtorEq, false_or] at hw
    simpa using hw
  next he =>
    simp only [he, reduceCtorEq, false_or] at hw
    simpa using hw
  next =>
    simp only [Move.width_pair, piece]
    omega

/-- An interpolation at a text that is not empty has a width. -/
theorem interpolationBody_width_pos (depth : Depth) (c : Char) (rest : Text) :
    0 < (interpolationBody depth (c :: rest)).width := by
  unfold interpolationBody
  repeat' split
  all_goals
    simp only [InterpolationBody.after]
    omega

end LineLexer.Script
