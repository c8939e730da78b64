import LineLexer.Proofs.LineBreak.Scan
import LineLexer.Proofs.Scan.Language

/-!
# Style sheets across a line break

In a style sheet nothing is asked of the line before, and a line break is like the end of a line to
every rule: it ends names, numbers and operators, and is a character like any other in comments and
literals, where a backslash at the end of a line escapes it. So every move joins (`joins_step`),
every state bridges the break (`bridges`), and two lines are lexed as one text with a line break
between them, from every state and whatever the second line holds (`style_line_break`).
-/

namespace LineLexer

namespace Style

/-! ## Numbers -/

section

variable {text next : Text}

/-- A sign lies in the text. -/
theorem signWidth_le (text : Text) : signWidth text ≤ text.length := by
  unfold signWidth
  split
  next h =>
    cases text with
    | nil => simp at h
    | cons c text => simp
  next => exact Nat.zero_le _

/-- A sign is the same. -/
theorem signWidth_join : signWidth (text ++ '\n' :: next) = signWidth text := by
  simp only [signWidth, head?_join_eq_some (show '+' ≠ '\n' by decide),
    head?_join_eq_some (show '-' ≠ '\n' by decide)]

/-- Digits are the same. -/
theorem digitsWidth_join : digitsWidth (text ++ '\n' :: next) = digitsWidth text :=
  runLength_join (by decide)

/-- A fraction lies in the text. -/
theorem fractionWidth_le (text : Text) : fractionWidth text ≤ text.length := by
  unfold fractionWidth
  split
  next h =>
    obtain ⟨text, rfl⟩ := List.head?_eq_some_iff.1 h
    have := runLength_le Char.isDigit text
    simp only [digitsWidth, List.drop_succ_cons, List.drop_zero, List.length_cons]
    omega
  next => exact Nat.zero_le _

/-- A fraction is the same. -/
theorem fractionWidth_join : fractionWidth (text ++ '\n' :: next) = fractionWidth text := by
  simp only [fractionWidth, head?_join_eq_some (show '.' ≠ '\n' by decide)]
  split
  next h =>
    obtain ⟨text, rfl⟩ := List.head?_eq_some_iff.1 h
    exact congrArg (1 + ·) digitsWidth_join
  next => rfl

/-- A number lies in the text. -/
theorem numberWidth?_le {width : Nat} (h : numberWidth? text = some width) :
    width ≤ text.length := by
  have hsign := signWidth_le text
  have hwhole := runLength_le Char.isDigit (text.drop (signWidth text))
  have hfraction := fractionWidth_le
    (text.drop (signWidth text + digitsWidth (text.drop (signWidth text))))
  simp only [numberWidth?] at h
  split at h
  next => cases h
  next =>
    cases h
    simp only [List.length_drop, digitsWidth] at hwhole hfraction ⊢
    omega

/-- A number is the same. -/
theorem numberWidth?_join : numberWidth? (text ++ '\n' :: next) = numberWidth? text := by
  have hsign := signWidth_le text
  have hwhole : signWidth text + digitsWidth (text.drop (signWidth text)) ≤ text.length := by
    have := runLength_le Char.isDigit (text.drop (signWidth text))
    rw [List.length_drop] at this
    rw [digitsWidth]
    omega
  simp only [numberWidth?, signWidth_join, drop_join hsign, digitsWidth_join, drop_join hwhole,
    fractionWidth_join]

/-- A unit lies in the text. -/
theorem unitWidth_le (text : Text) : unitWidth text ≤ text.length := by
  unfold unitWidth
  split
  next h =>
    obtain ⟨text, rfl⟩ := List.head?_eq_some_iff.1 h
    simp
  next =>
    dsimp only
    split
    next => exact runLength_le Char.isAlpha text
    next => exact Nat.zero_le _

/-- A unit is the same. -/
theorem unitWidth_join : unitWidth (text ++ '\n' :: next) = unitWidth text := by
  simp only [unitWidth, head?_join_eq_some (show '%' ≠ '\n' by decide),
    takeWhile_join (p := Char.isAlpha) (by decide)]

end

/-! ## Comments and literals -/

/-- The closing quote of a literal lies in the text. -/
theorem closingQuoteWidth?_le {quote : Quote} {text : Text} {width : Nat}
    (h : closingQuoteWidth? quote text = some width) : width ≤ text.length := by
  induction hlen : text.length using Nat.strong_induction_on generalizing text width with
  | _ n ih =>
    cases text with
    | nil => cases h
    | cons c rest =>
      rw [closingQuoteWidth?_cons] at h
      rw [List.length_cons] at hlen
      split at h
      next =>
        obtain ⟨width, hwidth, rfl⟩ := Option.map_eq_some_iff.1 h
        cases rest with
        | nil => cases hwidth
        | cons d rest =>
          simp only [List.length_cons] at hlen
          have := ih rest.length (by omega) hwidth rfl
          omega
      split at h
      next =>
        cases h
        omega
      next =>
        obtain ⟨width, hwidth, rfl⟩ := Option.map_eq_some_iff.1 h
        have := ih rest.length (by omega) hwidth rfl
        omega

/-- The body of a literal goes over the break, which a backslash at the end of the line escapes. -/
theorem goesOver_closingQuoteWidth? (quote : Quote) (next : Text) :
    GoesOver (closingQuoteWidth? quote) next where
  nil := rfl
  le := closingQuoteWidth?_le
  join text := by
    have hbreak : closingQuoteWidth? quote ('\n' :: next) =
        (closingQuoteWidth? quote next).map (· + 1) := by
      have hquote : '\n' ≠ quote.char := by cases quote <;> decide
      rw [closingQuoteWidth?_cons, if_neg (by decide), if_neg hquote]
    -- By induction on the length, since an escape takes two characters.
    induction hlen : text.length using Nat.strong_induction_on generalizing text with
    | _ n ih =>
      subst hlen
      cases text with
      | nil => exact hbreak
      | cons c rest =>
        rw [List.cons_append, closingQuoteWidth?_cons, closingQuoteWidth?_cons]
        split
        next =>
          cases rest with
          | nil => simp [closingQuoteWidth?]
          | cons d rest =>
            have hrest := ih rest.length (by simp only [List.length_cons]; omega) rest rfl
            simp only [List.cons_append, List.drop_succ_cons, List.drop_zero, hrest]
            cases closingQuoteWidth? quote rest <;>
              simp [Function.comp_def, Nat.add_assoc]
        split
        next => rfl
        next =>
          rw [ih rest.length (by simp) rest rfl]
          cases closingQuoteWidth? quote rest <;>
            simp [Function.comp_def, Nat.add_assoc]

/-- A comment is a construct whose body is measured. -/
theorem comment_eq_measured (context : StyleContext) (lead : Nat) (body : Text) :
    comment context lead body =
      measured (commentWidth? styleTag) .commentMultiline .style (.style (.code context))
        (.style (.comment context)) lead body :=
  rfl

/-- A literal is a construct whose body is measured. -/
theorem literal_eq_measured (quote : Quote) (context : StyleContext) (lead : Nat) (body : Text) :
    literal quote context lead body =
      measured (closingQuoteWidth? quote) (literalKind quote) .style (.style (.code context))
        (.style (.literal quote context)) lead body :=
  rfl

/-! ## Moves -/

section

variable {past : Recall} {next : Text}

/-- A comment joins. -/
theorem joins_comment {context : StyleContext} {lead : Nat} {text body : Text}
    (h : text.length = lead + body.length) :
    Joins next text (comment context lead body) (comment context lead (body ++ '\n' :: next)) := by
  rw [comment_eq_measured, comment_eq_measured]
  exact joins_measured (goesOver_commentWidth? (by decide) next) (by decide) h fun past => rfl

/-- A literal joins. -/
theorem joins_literal {quote : Quote} {context : StyleContext} {lead : Nat} {text body : Text}
    (h : text.length = lead + body.length) :
    Joins next text (literal quote context lead body)
      (literal quote context lead (body ++ '\n' :: next)) := by
  rw [literal_eq_measured, literal_eq_measured]
  exact joins_measured (goesOver_closingQuoteWidth? quote next) (by decide) h fun past => rfl

/-- A name or a call joins. -/
theorem joins_wordOrCall (c : Char) (rest : Text) (context : StyleContext) :
    Joins next (c :: rest) (wordOrCall rest context)
      (wordOrCall (rest ++ '\n' :: next) context) := by
  have hle := runLength_le isNameChar rest
  simp only [wordOrCall, runLength_join (p := isNameChar) (by decide), drop_join hle,
    head?_join_eq_some (show '(' ≠ '\n' by decide)]
  exact .chars (by simp only [List.length_cons]; omega)

/-- A number joins. -/
theorem joins_number {text : Text} {width : Nat} (h : numberWidth? text = some width)
    (context : StyleContext) :
    Joins next text (number width text context) (number width (text ++ '\n' :: next) context) := by
  have hle := numberWidth?_le h
  have hunit := unitWidth_le (text.drop width)
  rw [List.length_drop] at hunit
  rw [number, number, drop_join hle, unitWidth_join]
  exact .chars (by omega)

/-- Colons and the name after them join. -/
theorem joins_pseudo (rest : Text) :
    Joins next (':' :: rest) (pseudo rest) (pseudo (rest ++ '\n' :: next)) := by
  -- A second colon is there for both, and what is left after the colons is joined to the same line.
  obtain ⟨colons, hcolons, hle⟩ : ∃ colons, (if rest.head? = some ':' then 2 else 1) = colons ∧
      0 < colons ∧ colons - 1 ≤ rest.length := by
    refine ⟨_, rfl, ?_⟩
    split
    next h =>
      obtain ⟨tail, rfl⟩ := List.head?_eq_some_iff.1 h
      simp
    next => simp
  have hname := runLength_le isNameChar (rest.drop (colons - 1))
  rw [runLength, List.length_drop] at hname
  simp only [pseudo, head?_join_eq_some (show ':' ≠ '\n' by decide), hcolons, drop_join hle.2,
    takeWhile_join (p := isNameChar) (by decide)]
  split
  · exact .chars (by simp only [List.length_cons]; omega)
  · exact .chars (by simp only [List.length_cons]; omega)

/-- An at sign and the name after it join. -/
theorem joins_atKeyword (rest : Text) :
    Joins next ('@' :: rest) (atKeyword rest) (atKeyword (rest ++ '\n' :: next)) := by
  have hle := runLength_le isNameChar rest
  rw [runLength] at hle
  simp only [atKeyword, takeWhile_join (p := isNameChar) (by decide)]
  exact .chars (by simp only [List.length_cons]; omega)

/-- A move in a selector joins. -/
theorem joins_selector (c : Char) (rest : Text) :
    Joins next (c :: rest) (selector c rest) (selector c (rest ++ '\n' :: next)) := by
  have hchar : ∀ {kind context}, Joins next (c :: rest) (code kind 1 context)
      (code kind 1 context) :=
    .chars (by simp)
  unfold selector
  refine .ite (fun hc => ?_) fun _ => ?_
  · subst hc
    exact joins_atKeyword rest
  refine .ite (fun _ => hchar) fun _ => ?_
  refine .ite (fun _ => hchar) fun _ => ?_
  refine .ite (fun hc => ?_) fun _ => ?_
  · subst hc
    exact joins_pseudo rest
  refine .ite (fun _ => .run (by decide)) fun _ => ?_
  refine .ite (fun _ => hchar) fun _ => ?_
  refine .ite (fun _ => .run (by decide)) fun _ => ?_
  refine .ite (fun _ => .run (by decide)) fun _ => ?_
  refine .ite (fun _ => hchar) fun _ => ?_
  exact .ite (fun _ => .run (by decide)) fun _ => hchar

/-- A number, a name or any other character joins. -/
theorem joins_value (c : Char) (rest : Text) (context : StyleContext) :
    Joins next (c :: rest)
      (match numberWidth? (c :: rest) with
        | some width => number width (c :: rest) context
        | none => if isNameChar c then wordOrCall rest context else code .identifier 1 context)
      (match numberWidth? (c :: rest ++ '\n' :: next) with
        | some width => number width (c :: rest ++ '\n' :: next) context
        | none =>
          if isNameChar c then wordOrCall (rest ++ '\n' :: next) context
          else code .identifier 1 context) := by
  rw [numberWidth?_join]
  split
  next width h => exact joins_number h context
  split
  · exact joins_wordOrCall c rest context
  · exact .chars (by simp)

/-- A move in the prelude of an at-rule joins. -/
theorem joins_atRulePrelude (body : AtRuleBody) (c : Char) (rest : Text) :
    Joins next (c :: rest) (atRulePrelude body c rest)
      (atRulePrelude body c (rest ++ '\n' :: next)) := by
  have hchar : ∀ {kind context}, Joins next (c :: rest) (code kind 1 context)
      (code kind 1 context) :=
    .chars (by simp)
  unfold atRulePrelude
  refine .ite (fun _ => hchar) fun _ => ?_
  refine .ite (fun _ => hchar) fun _ => ?_
  refine .ite (fun _ => hchar) fun _ => ?_
  refine .ite (fun _ => hchar) fun _ => ?_
  exact .ite (fun _ => hchar) fun _ => joins_value c rest (.atRule body)

/-- A move left of a colon joins. -/
theorem joins_propertyKey (c : Char) (rest : Text) :
    Joins next (c :: rest) (propertyKey c rest) (propertyKey c (rest ++ '\n' :: next)) := by
  have hchar : ∀ {kind context}, Joins next (c :: rest) (code kind 1 context)
      (code kind 1 context) :=
    .chars (by simp)
  unfold propertyKey
  refine .ite (fun _ => hchar) fun _ => ?_
  refine .ite (fun _ => hchar) fun _ => ?_
  refine .ite (fun _ => hchar) fun _ => ?_
  refine .ite (fun _ => hchar) fun _ => ?_
  exact .ite (fun _ => .run (by decide)) fun _ => hchar

/-- A move right of a colon joins. -/
theorem joins_propertyValue (c : Char) (rest : Text) :
    Joins next (c :: rest) (propertyValue c rest) (propertyValue c (rest ++ '\n' :: next)) := by
  have hchar : ∀ {kind context}, Joins next (c :: rest) (code kind 1 context)
      (code kind 1 context) :=
    .chars (by simp)
  unfold propertyValue
  simp only [startsWithFolded_join (show '\n' ∉ foldCase "important".toList by decide),
    any_head?_join (p := isHexDigit) (by decide)]
  refine .ite (fun _ => hchar) fun _ => ?_
  refine .ite (fun _ => hchar) fun _ => ?_
  refine .ite (fun _ => hchar) fun _ => ?_
  refine .ite (fun h => ?_) fun _ => ?_
  · simp only [Bool.and_eq_true, startsWithFolded_iff] at h
    obtain ⟨-, word, tail, rfl, hlen, -⟩ := h
    have hword : "important".toList.length = 9 := by decide
    refine .chars ?_
    simp only [List.length_cons, List.length_append]
    omega
  exact .ite (fun _ => .run (by decide)) fun _ => joins_value c rest .propertyValue

/-- A move in the code of a context joins. -/
theorem joins_contextMove (context : StyleContext) (c : Char) (rest : Text) :
    Joins next (c :: rest) (contextMove context c rest)
      (contextMove context c (rest ++ '\n' :: next)) := by
  have htag : atClosingTag styleTag (c :: (rest ++ '\n' :: next)) =
      atClosingTag styleTag (c :: rest) :=
    atClosingTag_join (by decide) (c :: rest) next
  unfold contextMove
  simp only [head?_join_eq_some (show '*' ≠ '\n' by decide), htag]
  refine .ite (fun _ => .blanks (by decide) fun past => rfl) fun _ => ?_
  refine .ite (fun h => ?_) fun _ => ?_
  · simp only [Bool.and_eq_true, decide_eq_true_eq] at h
    obtain ⟨tail, rfl⟩ := List.head?_eq_some_iff.1 h.2
    exact joins_comment (by simp; omega)
  refine .ite (fun h => ?_) fun _ => ?_
  · rw [Bool.and_eq_true] at h
    exact joins_closeElement (by decide) h.2 next
  split
  next quote _ => exact joins_literal (by simp; omega)
  next =>
    cases context with
    | selector => exact joins_selector c rest
    | atRule body => exact joins_atRulePrelude body c rest
    | propertyKey => exact joins_propertyKey c rest
    | propertyValue => exact joins_propertyValue c rest

/-- Every move of a style sheet joins. -/
theorem joins_step (past : Recall) (state : StyleState) (c : Char) (rest next : Text) :
    Joins next (c :: rest) (step past (.style state) c rest)
      (step past (.style state) c (rest ++ '\n' :: next)) := by
  cases state with
  | code context => exact joins_contextMove context c rest
  | comment context => exact joins_comment (by simp)
  | literal quote context => exact joins_literal (by simp)

end

/-- Every state of a style sheet bridges the line break. -/
theorem bridges (past : Recall) (state : StyleState) (next : Text) :
    Bridges past (.style state) next := by
  cases state with
  | code context =>
    exact bridges_of_blanks .style
      (fun past c rest hc => by simp [step, move, contextMove, hc, code, one, piece]) past next
  | comment context =>
    have hstep : ∀ past c rest, step past (.style (.comment context)) c rest =
        measured (commentWidth? styleTag) .commentMultiline .style (.style (.code context))
          (.style (.comment context)) 0 (c :: rest) :=
      fun past c rest => rfl
    exact bridges_of_measured (goesOver_commentWidth? (by decide) next) (by decide)
      (.inl (by simp)) hstep past
  | literal quote context =>
    have hstep : ∀ past c rest, step past (.style (.literal quote context)) c rest =
        measured (closingQuoteWidth? quote) (literalKind quote) .style (.style (.code context))
          (.style (.literal quote context)) 0 (c :: rest) :=
      fun past c rest => rfl
    exact bridges_of_measured (goesOver_closingQuoteWidth? quote next) (by decide)
      (.inl (by simp)) hstep past

/-- A move whose spans are all of the style sheet stays in it. -/
theorem step_next_language {past : Recall} {state : ResumeState} {c : Char} {rest : Text}
    (hstate : state.language = .style)
    (hfits : ∀ span ∈ carve (step past state c rest).pieces (c :: rest), span.language = .style) :
    (step past state c rest).next.language = .style := by
  rcases step_language (by rw [hstate]; decide) past c rest with
    hstays | ⟨bracket, name, hcarve, -, hname⟩
  · rw [hstays.next_language, hstate]
  · -- The closing tag is not of the style sheet.
    have hstyle := hfits name (by rw [hcarve]; simp)
    rw [hname] at hstyle
    cases hstyle

/-- The states of a style sheet are those of its language. -/
theorem exists_of_language {state : ResumeState} (h : state.language = .style) :
    ∃ inner, state = .style inner := by
  cases state with
  | markup state => cases h
  | style state => exact ⟨state, rfl⟩
  | script state => cases h

end Style

/-! ## Two lines of a style sheet -/

/-- A line of a style sheet and the line behind it are lexed as one text with a line break between
them, whatever the line behind holds. -/
theorem style_line_break (base : Nat) (start : StyleState) (line next : Text)
    (hline : ∀ token ∈ (tokenize .off line base (.style start)).tokens,
      token.language = .style) :
    let first := tokenize .off line base (.style start)
    let second := tokenize .off next (base + byteLength line + 1) first.finish
    let joined := tokenize .off (line ++ '\n' :: next) base (.style start)
    joined.IsJoin first second base line next := by
  intro first second joined
  have hspans : ∀ span ∈ (scan .start (.style start) line).spans, span.language = .style :=
    forall_scan_of_tokenize hline
  have hstep : ∀ past state c rest, state.language = .style →
      (∀ span ∈ carve (step past state c rest).pieces (c :: rest), span.language = .style) →
        Joins next (c :: rest) (step past state c rest) (step past state c (rest ++ '\n' :: next)) ∧
          (step past state c rest).next.language = .style := by
    intro past state c rest hstate hfits
    obtain ⟨inner, rfl⟩ := Style.exists_of_language hstate
    exact ⟨Style.joins_step past inner c rest next, Style.step_next_language hstate hfits⟩
  have hbridge : ∀ past (state : ResumeState), state.language = .style →
      Bridges past state next := by
    intro past state hstate
    obtain ⟨inner, rfl⟩ := Style.exists_of_language hstate
    exact Style.bridges past inner next
  obtain ⟨hspliced, hfinish⟩ := spliced_scan (fun state => state.language = .style)
    (fun span => span.language = .style) hstep hbridge .start (.style start) line rfl hspans
  have hlast : (scan .start (.style start) line).finish.language = .style :=
    host_finish (fun state => state.language = .style) (fun span => span.language = .style)
      (fun _ _ _ _ => Style.step_next_language) .start (.style start) line rfl hspans
  -- Nothing that is recalled of the first line makes a difference to the second.
  have hscript : ((scan .start (.style start) line).spans.foldl Recall.note .start).script =
      Recall.start.script :=
    Recall.script_foldl_note_of_forall
      (fun span hspan => by simp [Span.isCode, hspans span hspan]) .start
  have hspelled := spelled_scan .start (.style start) line
  simp only [first, second, joined, tokenize_off]
  generalize scan .start (.style start) line = scanned at *
  rw [scan_eq_outside_tags _ _ next .start hscript
    (ne_startTag_of_language (by rw [hlast]; decide))] at hspliced hfinish
  simpa only [hspelled, spelled_scan] using hspliced.isJoin hfinish base

/-- A literal in a declaration, whose line ends in a backslash. -/
theorem isJoin_of_backslash :
    let line := "a\x7bb:'c\\".toList
    let next := "' d\x7d".toList
    let first := tokenize .off line 0 (.style (.code .selector))
    (∀ token ∈ first.tokens, token.language = .style) ∧
      (tokenize .off (line ++ '\n' :: next) 0 (.style (.code .selector))).IsJoin first
        (tokenize .off next 8 first.finish) 0 line next := by
  intro line next first
  have hline : ∀ token ∈ first.tokens, token.language = .style := by decide +kernel
  exact ⟨hline, style_line_break 0 (.code .selector) line next hline⟩

end LineLexer
