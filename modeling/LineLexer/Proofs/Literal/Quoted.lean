import LineLexer.Proofs.Literal.Escape
import LineLexer.Proofs.Scan.Cut

/-!
# Where quoted literals end

A quoted literal ends at the first closing quote that no backslash escapes, in scripts and in style
sheets alike, although the two read it in different steps (`isThroughFirst_literalBody`,
`isThroughFirst_closingQuoteWidth?`). If there is none it takes the rest of the line. A style sheet
then stays in the literal; a script does only if the line ends in a backslash that escapes the
break.

A script also checks the escapes, and it accepts a literal that it has seen the end of or that goes
on behind the break if all of them are well formed (`valid_literalBody_iff`). `literal_ends` puts
this together for the tokens of lines on which a literal opens or goes on.
-/

namespace LineLexer

/-- A quotation mark matters in its literal and is no backslash. -/
theorem Quote.isMark_char (quote : Quote) : isMark quote.char = true ∧ '\\' ≠ quote.char := by
  cases quote <;> decide

/-! ## In scripts -/

namespace Script

/-- The width through the closing quote of a body, if it has one. -/
def LiteralBody.closing? (body : LiteralBody) : Option Nat :=
  if body.ending = .closed then some body.width else none

/-- Characters before a body come before its closing quote. -/
theorem closing?_after (lead : Nat) (body : LiteralBody) :
    (body.after lead).closing? = body.closing?.map (lead + ·) := by
  unfold LiteralBody.closing?
  rw [ending_literalBody_after]
  split <;> rfl

/-- The body of a literal is closed by the first quote that is not escaped. -/
theorem isThroughFirst_literalBody (quote : Quote) (valid : Bool) (text : Text) :
    IsThroughFirst (bare quote.char text) (literalBody quote valid text).closing? := by
  obtain ⟨hmark, hbackslash⟩ := quote.isMark_char
  fun_induction literalBody quote valid text with
  | case1 => simp [LiteralBody.closing?, IsThroughFirst, bare]
  | case2 valid rest hrest =>
    refine Set.eq_empty_of_forall_notMem fun place hplace => ?_
    have hmem := List.mem_of_getElem? hplace.1
    rw [List.isEmpty_iff.1 hrest, List.mem_singleton] at hmem
    exact hbackslash hmem.symm
  | case3 valid rest hrest ih =>
    have hne : rest ≠ [] := by simpa using hrest
    have hunit := isUnit_escape hne
    have hhead : ('\\' :: rest).head? ≠ some quote.char := by simpa using hbackslash
    have hplaces := mem_bare_iff_of_head? hunit hmark hhead
    rw [drop_escape] at hplaces
    rw [closing?_after]
    exact ih.add hplaces
  | case4 valid rest hescape => exact isThroughFirst_head ⟨rfl, isUnescaped_zero _⟩
  | case5 valid c rest hescape hquote ih =>
    have hhead : (c :: rest).head? ≠ some quote.char := by simpa using hquote
    rw [closing?_after]
    exact ih.add (mem_bare_iff_of_head? (isUnit_char hescape rest) hmark hhead)

/-- A body that is not closed goes on behind the line if its last character is a backslash that is
not escaped. -/
theorem ending_literalBody (quote : Quote) (valid : Bool) (text : Text)
    (h : (literalBody quote valid text).ending ≠ .closed) :
    (literalBody quote valid text).ending =
      if IsUnescaped text text.length then .unterminated else .continued := by
  fun_induction literalBody quote valid text with
  | case1 => simp
  | case2 valid rest hrest =>
    have hlast : ¬IsUnescaped ['\\'] 1 := by decide
    rw [List.isEmpty_iff.1 hrest]
    exact (if_neg hlast).symm
  | case3 valid rest hrest ih =>
    have hne : rest ≠ [] := by simpa using hrest
    have hunit := isUnit_escape hne
    simp only [hunit.isUnescaped_length_iff, drop_escape]
    exact ih h
  | case4 => exact absurd rfl h
  | case5 valid c rest hescape hquote ih =>
    simp only [(isUnit_char hescape rest).isUnescaped_length_iff]
    exact ih h

/-- A body passes its checks if it did so far and all of its escapes are well formed. -/
theorem valid_literalBody_iff (quote : Quote) (valid : Bool) (text : Text) :
    (literalBody quote valid text).valid = true ↔
      valid = true ∧ HasEscapes text (literalBody quote valid text).width := by
  obtain ⟨-, hbackslash⟩ := quote.isMark_char
  fun_induction literalBody quote valid text with
  | case1 => simp [HasEscapes]
  | case2 valid rest hrest =>
    rw [List.isEmpty_iff.1 hrest]
    simp [HasEscapes]
  | case3 valid rest hrest ih =>
    have hne : rest ≠ [] := by simpa using hrest
    have hunit := isUnit_escape hne
    have hpos := List.length_pos_iff.2 hne
    rw [valid_literalBody_after, width_literalBody_after, hasEscapes_add_iff hunit, drop_escape, ih,
      Bool.and_eq_true, escape_eq_true_iff hne]
    simp [hpos, and_assoc]
  | case4 valid rest hescape =>
    have hnone : HasEscapes (quote.char :: rest) 1 := by
      intro place hplace hlt
      obtain rfl : place = 0 := by omega
      exact absurd (Option.some.inj hplace.1).symm hbackslash
    simp [hnone]
  | case5 valid c rest hescape hquote ih =>
    rw [valid_literalBody_after, width_literalBody_after,
      hasEscapes_add_iff (isUnit_char hescape rest), ih]
    simp [hescape]

end Script

/-! ## In style sheets -/

namespace Style

/-- A literal is closed by the first quote that is not escaped. -/
theorem isThroughFirst_closingQuoteWidth? (quote : Quote) (text : Text) :
    IsThroughFirst (bare quote.char text) (closingQuoteWidth? quote text) := by
  obtain ⟨hmark, hbackslash⟩ := quote.isMark_char
  fun_induction closingQuoteWidth? quote text with
  | case1 => simp [IsThroughFirst, bare]
  | case2 => exact isThroughFirst_head ⟨rfl, isUnescaped_zero _⟩
  | case3 c hquote =>
    refine Set.eq_empty_of_forall_notMem fun place hplace => ?_
    exact hquote (List.mem_singleton.1 (List.mem_of_getElem? hplace.1)).symm
  | case4 d rest ih =>
    have hunit : IsUnit ('\\' :: d :: rest) (1 + 1) :=
      isUnit_backslash Nat.one_pos (by simp) (by simp)
    have hhead : ('\\' :: d :: rest).head? ≠ some quote.char := by simpa using hbackslash
    have hclosing := ih.add (mem_bare_iff_of_head? hunit hmark hhead)
    simpa only [Nat.add_comm] using hclosing
  | case5 d rest hescape => exact isThroughFirst_head ⟨rfl, isUnescaped_zero _⟩
  | case6 c d rest hescape hquote ih =>
    have hhead : (c :: d :: rest).head? ≠ some quote.char := by simpa using hquote
    have hclosing := ih.add (mem_bare_iff_of_head? (isUnit_char hescape (d :: rest)) hmark hhead)
    simpa only [Nat.add_comm] using hclosing

end Style

/-! ## Tokens of literals -/

section

variable {quote : Quote} {body : Text} {width : Nat}

/-- A script takes so many characters of the body of a literal, valid so far, which passes its
checks or not: as a move, where the literal opens, and on a line on which it goes on. -/
structure Script.TakesLiteral (quote : Quote) (valid : Bool) (body : Text) (width : Nat)
    (passes : Bool) (next : ScriptState) : Prop where
  move : ∀ lead, literal quote valid lead body =
    one (if passes then literalKind quote else literalErrorKind quote) (lead + width) next
  opens : valid = true → CutsOff .off (.script .code) (quote.char :: body)
    [⟨if passes then literalKind quote else literalErrorKind quote, .script,
      quote.char :: body.take width, .empty⟩] (.script next)
  goesOn : body ≠ [] → CutsOff .off (.script (.literal quote valid)) body
    [⟨if passes then literalKind quote else literalErrorKind quote, .script, body.take width,
      .empty⟩] (.script next)

/-- A style sheet takes so many characters of the body of a literal. -/
structure Style.TakesLiteral (quote : Quote) (context : StyleContext) (body : Text) (width : Nat)
    (next : StyleState) : Prop where
  move : ∀ lead, literal quote context lead body = one (literalKind quote) (lead + width) next
  opens : CutsOff .off (.style (.code context)) (quote.char :: body)
    [⟨literalKind quote, .style, quote.char :: body.take width, .empty⟩] (.style next)
  goesOn : body ≠ [] → CutsOff .off (.style (.literal quote context)) body
    [⟨literalKind quote, .style, body.take width, .empty⟩] (.style next)

/-- The move says what is taken wherever the body stands. -/
theorem Script.takesLiteral_of_move {valid passes : Bool} {next : ScriptState}
    (hmove : ∀ lead, literal quote valid lead body =
      one (if passes then literalKind quote else literalErrorKind quote) (lead + width) next) :
    TakesLiteral quote valid body width passes next where
  move := hmove
  opens := by
    rintro rfl
    have hcode : ∀ regexAllowed, code regexAllowed quote.char body = literal quote true 1 body := by
      intro regexAllowed
      cases quote <;> rfl
    have hstep : ∀ past, step past (.script .code) quote.char body = _ :=
      fun past => (hcode _).trans (hmove 1)
    have hcut := cutsOff_of_step_singleton .off hstep (by omega) rfl
    rwa [Nat.add_comm 1, List.take_succ_cons] at hcut
  goesOn hne := by
    obtain ⟨c, rest, rfl⟩ := List.exists_cons_of_ne_nil hne
    have hstep : ∀ past, step past (.script (.literal quote valid)) c rest = _ := fun _ => hmove 0
    have hpos := literal_width_pos quote valid 0 fun _ => hne
    rw [hmove, width_one] at hpos
    have hcut := cutsOff_of_step_singleton .off hstep hpos rfl
    rwa [Nat.zero_add] at hcut

/-- The move says what is taken wherever the body stands. -/
theorem Style.takesLiteral_of_move {context : StyleContext} {next : StyleState}
    (hmove : ∀ lead,
      literal quote context lead body = one (literalKind quote) (lead + width) next) :
    TakesLiteral quote context body width next where
  move := hmove
  opens := by
    have hcode : contextMove context quote.char body = literal quote context 1 body := by
      cases quote <;> rfl
    have hstep : ∀ past, step past (.style (.code context)) quote.char body = _ :=
      fun _ => hcode.trans (hmove 1)
    have hcut := cutsOff_of_step_singleton .off hstep (by omega) rfl
    rwa [Nat.add_comm 1, List.take_succ_cons] at hcut
  goesOn hne := by
    obtain ⟨c, rest, rfl⟩ := List.exists_cons_of_ne_nil hne
    have hstep : ∀ past, step past (.style (.literal quote context)) c rest = _ := fun _ => hmove 0
    have hpos := literal_width_pos quote context 0 fun _ => hne
    rw [hmove, width_one] at hpos
    have hcut := cutsOff_of_step_singleton .off hstep hpos rfl
    rwa [Nat.zero_add] at hcut

end

/-- A quoted literal ends at the first closing quote that is not escaped, and takes the rest of the
line if there is none. A script accepts it if all escapes up to its end are well formed and it is
closed or goes on behind the break, which is if the line ends in a backslash that is not escaped. -/
theorem literal_ends (quote : Quote) (valid : Bool) (context : StyleContext) (body : Text) :
    (∀ place, IsLeast (bare quote.char body) place →
      Script.TakesLiteral quote valid body (place + 1)
          (valid && decide (Script.HasEscapes body (place + 1))) .code ∧
        Style.TakesLiteral quote context body (place + 1) (.code context)) ∧
    (bare quote.char body = ∅ →
      (IsUnescaped body body.length →
        Script.TakesLiteral quote valid body body.length false .code) ∧
      (¬IsUnescaped body body.length →
        Script.TakesLiteral quote valid body body.length
          (valid && decide (Script.HasEscapes body body.length))
          (.literal quote (valid && decide (Script.HasEscapes body body.length)))) ∧
      Style.TakesLiteral quote context body body.length (.literal quote context)) := by
  have hscript := Script.isThroughFirst_literalBody quote valid body
  have hstyle := Style.isThroughFirst_closingQuoteWidth? quote body
  have hvalid : (Script.literalBody quote valid body).valid =
      (valid && decide (Script.HasEscapes body (Script.literalBody quote valid body).width)) := by
    rw [Bool.eq_iff_iff, Script.valid_literalBody_iff, Bool.and_eq_true, decide_eq_true_eq]
  constructor
  · intro place hleast
    have hfound := hscript.eq_some hleast
    rw [Script.LiteralBody.closing?, Option.ite_none_right_eq_some] at hfound
    obtain ⟨hclosed, hwidth⟩ := hfound
    rw [Option.some.inj hwidth] at hvalid
    refine ⟨Script.takesLiteral_of_move fun lead => ?_, Style.takesLiteral_of_move fun lead => ?_⟩
    · simp [Script.literal, hclosed, Option.some.inj hwidth, hvalid]
    · rw [Style.literal, hstyle.eq_some hleast]
      rfl
  · intro hnone
    have hopen : (Script.literalBody quote valid body).ending ≠ .closed := by
      have hfound := hscript.eq_none hnone
      intro hclosed
      rw [Script.LiteralBody.closing?, if_pos hclosed] at hfound
      cases hfound
    have hwidth := Script.literalBody_width_eq hopen
    have hending := Script.ending_literalBody quote valid body hopen
    rw [hwidth] at hvalid
    refine ⟨fun hend => Script.takesLiteral_of_move fun lead => ?_,
      fun hend => Script.takesLiteral_of_move fun lead => ?_,
      Style.takesLiteral_of_move fun lead => ?_⟩
    · rw [if_pos hend] at hending
      simp [Script.literal, hending, hwidth]
    · rw [if_neg hend] at hending
      simp [Script.literal, hending, hwidth, hvalid]
    · rw [Style.literal, hstyle.eq_none hnone]

end LineLexer
