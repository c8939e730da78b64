import LineLexer.Proofs.Document
import LineLexer.Proofs.Scan.Language
import LineLexer.Proofs.Token.Cover
import LineLexer.Proofs.Vocabulary.Dictionary

/-!
# The context of a style sheet

Which context the code of a style sheet is in can be told from the tokens alone.
`StyleContext.after` says what one token changes: the name of an at-rule opens its prelude, and
braces, colons and semicolons go from one context to another. A move that stays in a style sheet
takes one piece and goes on in the context behind it (`Style.tracksContext_move`), so the context at
the end of a line is what the tokens make of the one at its start (`styleContext_eq_foldl`).
-/

namespace LineLexer

/-- The context behind a token, given the context in which the token is read. -/
def StyleContext.after (context : StyleContext) (kind : Kind) (text : Text) : StyleContext :=
  match context, kind with
  | .selector, .regex =>
    match text with
    | '@' :: name => .atRule (Style.bodyOfName name)
    | _ => .selector
  | .selector, .separator => if text = ['{'] then .propertyKey else .selector
  | .atRule body, .separator =>
    if text = [';'] ∨ text = ['}'] then .selector
    else if text = ['{'] then
      match body with
      | .rules => .selector
      | .declarations => .propertyKey
    else .atRule body
  | .propertyKey, .operator => if text = [':'] then .propertyValue else .propertyKey
  | .propertyKey, .separator => if text = ['}'] then .selector else .propertyKey
  | .propertyValue, .operator => if text = [';'] then .propertyKey else .propertyValue
  | .propertyValue, .separator => if text = ['}'] then .selector else .propertyValue
  | context, _ => context

/-- The kinds of the tokens that may change the context. -/
def structuralKinds : List Kind := [.regex, .separator, .operator]

namespace StyleContext

/-- A token of another kind leaves the context. -/
theorem after_of_not_mem {kind : Kind} (h : kind ∉ structuralKinds) (context : StyleContext)
    (text : Text) : context.after kind text = context := by
  cases kind <;> first | exact absurd (by decide) h | (cases context <;> rfl)

/-- An empty text leaves the context. -/
@[simp] theorem after_nil (context : StyleContext) (kind : Kind) :
    context.after kind [] = context := by
  cases context <;> cases kind <;> rfl

section

variable {c : Char}

/-- In a selector, of the separators only an opening brace changes the context. -/
theorem after_selector_separator (h : c ≠ '{') : selector.after .separator [c] = selector :=
  if_neg (by simpa using h)

/-- In the prelude of an at-rule, of the separators only braces and semicolons change it. -/
theorem after_atRule_separator (body : AtRuleBody) (hsemicolon : c ≠ ';') (hclosing : c ≠ '}')
    (hopening : c ≠ '{') : (atRule body).after .separator [c] = atRule body := by
  simp [after, hsemicolon, hclosing, hopening]

/-- Left of a colon, of the separators only a closing brace changes it. -/
theorem after_propertyKey_separator (h : c ≠ '}') :
    propertyKey.after .separator [c] = propertyKey :=
  if_neg (by simpa using h)

/-- Left of a colon, of the operators only the colon changes it. -/
theorem after_propertyKey_operator (h : c ≠ ':') :
    propertyKey.after .operator [c] = propertyKey :=
  if_neg (by simpa using h)

/-- Right of a colon, of the separators only a closing brace changes it. -/
theorem after_propertyValue_separator (h : c ≠ '}') :
    propertyValue.after .separator [c] = propertyValue :=
  if_neg (by simpa using h)

end

end StyleContext

/-! ## Moves -/

namespace Style

/-- A move takes one piece of a style sheet and goes on in the context behind it. -/
def TracksContext (context : StyleContext) (text : Text) (move : Move) : Prop :=
  ∃ kind width flags next, move = ⟨[⟨kind, width, .style, flags⟩], .style next⟩ ∧
    next.context = context.after kind (text.take width)

section

variable {context next : StyleContext} {kind : Kind} {c : Char}

/-- A piece that goes on in the context behind it. -/
theorem tracksContext_code {width : Nat} {text : Text}
    (h : context.after kind (text.take width) = next) :
    TracksContext context text (code kind width next) :=
  ⟨kind, width, .empty, .code next, rfl, h.symm⟩

/-- A single character that goes on in the context behind it. -/
theorem tracksContext_char (h : context.after kind [c] = next) (rest : Text) :
    TracksContext context (c :: rest) (code kind 1 next) :=
  tracksContext_code h

/-- A piece of a kind that leaves the context, which it goes on in. -/
theorem tracksContext_of_not_mem (h : kind ∉ structuralKinds) (width : Nat) (next : StyleState)
    (text : Text) : TracksContext next.context text (one kind width next) :=
  ⟨kind, width, .empty, next, rfl, (StyleContext.after_of_not_mem h ..).symm⟩

/-- A choice between moves goes on in the context behind if both do where they are made. -/
theorem TracksContext.ite {text : Text} {p : Prop} [Decidable p] {first second : Move}
    (hfirst : p → TracksContext context text first)
    (hsecond : ¬p → TracksContext context text second) :
    TracksContext context text (if p then first else second) := by
  by_cases h : p
  · rw [if_pos h]
    exact hfirst h
  · rw [if_neg h]
    exact hsecond h

/-- A comment returns to its context, closed or not. -/
theorem tracksContext_comment (context : StyleContext) (lead : Nat) (body text : Text) :
    TracksContext context text (comment context lead body) := by
  unfold comment
  split
  · exact tracksContext_of_not_mem (by decide) _ (.code context) text
  · exact tracksContext_of_not_mem (by decide) _ (.comment context) text

/-- A literal returns to its context, closed or not. -/
theorem tracksContext_literal (quote : Quote) (context : StyleContext) (lead : Nat)
    (body text : Text) : TracksContext context text (literal quote context lead body) := by
  have hkind : literalKind quote ∉ structuralKinds := by cases quote <;> decide
  unfold literal
  split
  · exact tracksContext_of_not_mem hkind _ (.code context) text
  · exact tracksContext_of_not_mem hkind _ (.literal quote context) text

/-- A name or a call leaves the context. -/
theorem tracksContext_wordOrCall (rest : Text) (context : StyleContext) (text : Text) :
    TracksContext context text (wordOrCall rest context) := by
  simp only [wordOrCall]
  split
  · exact tracksContext_of_not_mem (by decide) _ (.code context) text
  · exact tracksContext_of_not_mem (by decide) _ (.code context) text

/-- Colons leave the context, whether or not a name goes with them. -/
theorem tracksContext_pseudo (rest text : Text) :
    TracksContext .selector text (pseudo rest) := by
  simp only [pseudo]
  generalize (if rest.head? = some ':' then 2 else 1) = colons
  split
  · exact tracksContext_of_not_mem (by decide) _ (.code .selector) text
  · exact tracksContext_code rfl

/-- The name of an at-rule opens its prelude. -/
theorem tracksContext_atKeyword (rest : Text) :
    TracksContext .selector ('@' :: rest) (atKeyword rest) := by
  refine ⟨_, _, _, _, rfl, ?_⟩
  have htake : ('@' :: rest).take (1 + (rest.takeWhile isNameChar).length) =
      '@' :: rest.takeWhile isNameChar := by
    rw [Nat.add_comm]
    exact take_runLength_succ ..
  rw [htake, getD_find?_atRules]
  rfl

/-! ## Contexts -/

/-- A move in a selector goes on in the context behind it. -/
theorem tracksContext_selector (c : Char) (rest : Text) :
    TracksContext .selector (c :: rest) (selector c rest) := by
  have hother {kind : Kind} (h : kind ∉ structuralKinds) (width : Nat) :
      TracksContext .selector (c :: rest) (code kind width .selector) :=
    tracksContext_of_not_mem h width (.code .selector) _
  unfold selector
  refine .ite (fun hat => ?_) fun _ => ?_
  · rw [hat]
    exact tracksContext_atKeyword rest
  refine .ite (fun hbrace => ?_) fun hbrace => ?_
  · rw [hbrace]
    exact tracksContext_char rfl rest
  refine .ite (fun _ => ?_) fun _ => ?_
  · exact tracksContext_char (StyleContext.after_selector_separator hbrace) rest
  refine .ite (fun _ => tracksContext_pseudo ..) fun _ => ?_
  refine .ite (fun _ => hother (by decide) _) fun _ => ?_
  refine .ite (fun _ => hother (by decide) _) fun _ => ?_
  refine .ite (fun _ => hother (by decide) _) fun _ => ?_
  refine .ite (fun _ => hother (by decide) _) fun _ => ?_
  refine .ite (fun _ => tracksContext_char rfl rest) fun _ => ?_
  exact .ite (fun _ => hother (by decide) _) fun _ => hother (by decide) _

/-- A move in the prelude of an at-rule goes on in the context behind it. -/
theorem tracksContext_atRulePrelude (body : AtRuleBody) (c : Char) (rest : Text) :
    TracksContext (.atRule body) (c :: rest) (atRulePrelude body c rest) := by
  have hother {kind : Kind} (h : kind ∉ structuralKinds) (width : Nat) :
      TracksContext (.atRule body) (c :: rest) (code kind width (.atRule body)) :=
    tracksContext_of_not_mem h width (.code (.atRule body)) _
  unfold atRulePrelude
  refine .ite (fun hsemicolon => ?_) fun hsemicolon => ?_
  · rw [hsemicolon]
    exact tracksContext_char rfl rest
  refine .ite (fun hopening => ?_) fun hopening => ?_
  · rw [hopening]
    exact tracksContext_char (by cases body <;> rfl) rest
  refine .ite (fun hclosing => ?_) fun hclosing => ?_
  · rw [hclosing]
    exact tracksContext_char rfl rest
  refine .ite (fun _ => ?_) fun _ => ?_
  · exact tracksContext_char
      (StyleContext.after_atRule_separator body hsemicolon hclosing hopening) rest
  refine .ite (fun _ => tracksContext_char rfl rest) fun _ => ?_
  split
  · exact hother (by decide) _
  · exact .ite (fun _ => tracksContext_wordOrCall ..) fun _ => hother (by decide) _

/-- A move left of a colon goes on in the context behind it. -/
theorem tracksContext_propertyKey (c : Char) (rest : Text) :
    TracksContext .propertyKey (c :: rest) (propertyKey c rest) := by
  have hother {kind : Kind} (h : kind ∉ structuralKinds) (width : Nat) :
      TracksContext .propertyKey (c :: rest) (code kind width .propertyKey) :=
    tracksContext_of_not_mem h width (.code .propertyKey) _
  unfold propertyKey
  refine .ite (fun hcolon => ?_) fun hcolon => ?_
  · rw [hcolon]
    exact tracksContext_char rfl rest
  refine .ite (fun hbrace => ?_) fun hbrace => ?_
  · rw [hbrace]
    exact tracksContext_char rfl rest
  refine .ite (fun _ => ?_) fun _ => ?_
  · exact tracksContext_char (StyleContext.after_propertyKey_separator hbrace) rest
  refine .ite (fun _ => ?_) fun _ => ?_
  · exact tracksContext_char (StyleContext.after_propertyKey_operator hcolon) rest
  exact .ite (fun _ => hother (by decide) _) fun _ => hother (by decide) _

/-- A move right of a colon goes on in the context behind it. -/
theorem tracksContext_propertyValue (c : Char) (rest : Text) :
    TracksContext .propertyValue (c :: rest) (propertyValue c rest) := by
  have hother {kind : Kind} (h : kind ∉ structuralKinds) (width : Nat) :
      TracksContext .propertyValue (c :: rest) (code kind width .propertyValue) :=
    tracksContext_of_not_mem h width (.code .propertyValue) _
  unfold propertyValue
  refine .ite (fun hsemicolon => ?_) fun _ => ?_
  · rw [hsemicolon]
    exact tracksContext_char rfl rest
  refine .ite (fun hbrace => ?_) fun hbrace => ?_
  · rw [hbrace]
    exact tracksContext_char rfl rest
  refine .ite (fun _ => ?_) fun _ => ?_
  · exact tracksContext_char (StyleContext.after_propertyValue_separator hbrace) rest
  refine .ite (fun _ => hother (by decide) _) fun _ => ?_
  refine .ite (fun _ => hother (by decide) _) fun _ => ?_
  split
  · exact hother (by decide) _
  · exact .ite (fun _ => tracksContext_wordOrCall ..) fun _ => hother (by decide) _

/-- A move of a style sheet goes on in the context behind it, or it closes the element. -/
theorem tracksContext_move (state : StyleState) (c : Char) (rest : Text) :
    TracksContext state.context (c :: rest) (move state c rest) ∨
      atClosingTag styleTag (c :: rest) = true ∧ move state c rest = closeElement styleTag := by
  cases state with
  | comment context => exact .inl (tracksContext_comment ..)
  | literal quote context => exact .inl (tracksContext_literal ..)
  | code context =>
    simp only [move, contextMove, StyleState.context]
    split
    · exact .inl (tracksContext_of_not_mem (by decide) _ (.code context) _)
    split
    · exact .inl (tracksContext_comment ..)
    split
    next htag => exact .inr ⟨(Bool.and_eq_true_iff.1 htag).2, rfl⟩
    split
    · exact .inl (tracksContext_literal ..)
    cases context with
    | selector => exact .inl (tracksContext_selector c rest)
    | atRule body => exact .inl (tracksContext_atRulePrelude body c rest)
    | propertyKey => exact .inl (tracksContext_propertyKey c rest)
    | propertyValue => exact .inl (tracksContext_propertyValue c rest)

end

end Style

/-! ## Spans -/

namespace StyleContext

/-- The context behind spans in a row. -/
def behind (context : StyleContext) (spans : List Span) : StyleContext :=
  spans.foldl (fun context span => context.after span.kind span.text) context

/-- Behind more spans the context is the one behind them from there. -/
theorem behind_append (context : StyleContext) (spans more : List Span) :
    context.behind (spans ++ more) = (context.behind spans).behind more :=
  List.foldl_append

/-- Spans of other kinds leave the context. -/
theorem behind_of_not_mem {spans : List Span} (h : ∀ span ∈ spans, span.kind ∉ structuralKinds)
    (context : StyleContext) : context.behind spans = context := by
  induction spans with
  | nil => rfl
  | cons span spans ih =>
    have hspan : context.after span.kind span.text = context :=
      after_of_not_mem (h span List.mem_cons_self) ..
    rw [behind, List.foldl_cons, hspan]
    exact ih fun other hother => h other (List.mem_cons_of_mem _ hother)

/-- Splitting a span around its link changes nothing behind it. -/
theorem behind_split (context : StyleContext) (scope : LinkScope) (span : Span) :
    context.behind (span.split scope) = context.after span.kind span.text := by
  by_cases hkind : span.kind ∈ structuralKinds
  · -- Spans of these kinds are not searched for links.
    have hscope : ∀ kind ∈ structuralKinds, scope.appliesTo kind = false := by
      cases scope <;> decide
    have hsplit : span.split scope = [span] := by simp [Span.split, hscope _ hkind]
    rw [hsplit]
    rfl
  · rw [after_of_not_mem hkind]
    refine behind_of_not_mem (fun part hpart => ?_) context
    rw [(Span.kind_of_mem_split hpart).1]
    exact hkind

/-- Splitting spans around their links changes nothing behind them. -/
theorem behind_flatMap_split (context : StyleContext) (scope : LinkScope) (spans : List Span) :
    context.behind (spans.flatMap (Span.split scope)) = context.behind spans := by
  induction spans generalizing context with
  | nil => rfl
  | cons span spans ih =>
    rw [List.flatMap_cons, behind_append, behind_split, ih]
    rfl

end StyleContext

/-- A piece of a style sheet goes on in the context behind what it cuts off. -/
theorem Style.TracksContext.context_next {context : StyleContext} {text : Text} {move : Move}
    (h : TracksContext context text move) : ∃ next, move.next = .style next ∧
      next.context = context.behind (carve move.pieces text) := by
  obtain ⟨kind, width, flags, next, rfl, hnext⟩ := h
  refine ⟨next, rfl, ?_⟩
  simp only [carve]
  split
  next hempty => rw [hnext, List.isEmpty_iff.1 hempty, StyleContext.after_nil]; rfl
  next => exact hnext

/-! ## Lines -/

/-- A scan that cuts off spans of a style sheet only ends in the context behind them. -/
theorem styleContext?_scan (past : Recall) (state : ResumeState) (text : Text) :
    ∀ start, state = .style start →
      (∀ span ∈ (scan past state text).spans, span.language = .style) →
      (scan past state text).finish.styleContext? =
        some (start.context.behind (scan past state text).spans) := by
  fun_induction scan past state text with
  | case1 past state =>
    rintro start rfl -
    rfl
  | case2 past state c rest move spans more ih =>
    rintro start rfl hstyle
    rcases Style.tracksContext_move start c rest with htracks | ⟨htag, hmove⟩
    · obtain ⟨next, hnext, hcontext⟩ := htracks.context_next
      have hmore := ih next hnext fun span hspan => hstyle span (List.mem_append_right _ hspan)
      rw [hmore, hcontext, StyleContext.behind_append]
      rfl
    · -- The bracket of the closing tag is of markup.
      rw [← Language.closingTag_style] at htag hmove
      obtain ⟨bracket, name, hcarve, hbracket, -⟩ := exists_carve_closeElement (by decide) htag
      have hspans : spans = [bracket, name] := by
        rw [← hcarve, ← hmove]
        rfl
      have hlanguage := hstyle bracket (by simp [hspans])
      rw [hbracket.language] at hlanguage
      cases hlanguage

/-- The context at the end of a line whose tokens are all of a style sheet is what they make, one
after the other, of the context that the line starts in. Comments and literals, closed or left open,
leave the context. -/
theorem styleContext_eq_foldl (scope : LinkScope) (line : Text) (base : Nat) (start : StyleState)
    (h : ∀ token ∈ (tokenize scope line base (.style start)).tokens, token.language = .style) :
    (tokenize scope line base (.style start)).finish.styleContext? =
        some ((tokenize scope line base (.style start)).tokens.foldl
          (fun context token => context.after token.kind token.text) start.context) ∧
      ∀ (context : StyleContext) (kind : Kind) (text : Text),
        kind.isComment = true ∨ kind.isStringLike = true → context.after kind text = context := by
  constructor
  · have hspans : ∀ span ∈ (scan .start (.style start) line).spans, span.language = .style := by
      intro span hspan
      obtain ⟨part, hpart⟩ := List.exists_mem_of_ne_nil _ (span.split_ne_nil scope)
      have hmem := List.mem_flatMap.2 ⟨span, hspan, hpart⟩
      rw [← map_span_placeFrom base ((scan .start (.style start) line).spans.flatMap _)] at hmem
      obtain ⟨token, htoken, rfl⟩ := List.mem_map.1 hmem
      rw [← (Span.kind_of_mem_split hpart).2]
      exact h token htoken
    calc (scan .start (.style start) line).finish.styleContext?
        = some (start.context.behind (scan .start (.style start) line).spans) :=
          styleContext?_scan _ _ _ start rfl hspans
      _ = some (start.context.behind
            ((tokenize scope line base (.style start)).tokens.map Token.span)) := by
          rw [← StyleContext.behind_flatMap_split _ scope]
          exact congrArg _ (congrArg _ (map_span_placeFrom ..).symm)
      _ = _ := by rw [StyleContext.behind, List.foldl_map]; rfl
  · intro context kind text hkind
    have hneither : ∀ kind ∈ structuralKinds,
        ¬(kind.isComment = true ∨ kind.isStringLike = true) := by
      decide
    exact StyleContext.after_of_not_mem (fun hmem => hneither kind hmem hkind) context text

/-- A comment left open in the block of an at-rule comes back to property names. -/
theorem styleContext_eq_foldl_of_page :
    let lexed := tokenize .off "@Page\x7ba:\"\x7d\";/*".toList 0 (.style (.code .selector))
    (∀ token ∈ lexed.tokens, token.language = .style) ∧
      lexed.finish = .style (.comment .propertyKey) ∧
      lexed.tokens.foldl (fun context token => context.after token.kind token.text)
        StyleContext.selector = .propertyKey := by
  intro lexed
  have hstyle : ∀ token ∈ lexed.tokens, token.language = .style := by
    decide +kernel
  have hfinish : lexed.finish = .style (.comment .propertyKey) := by
    decide +kernel
  have hfold := (styleContext_eq_foldl .off _ 0 (.code .selector) hstyle).1
  rw [hfinish] at hfold
  exact ⟨hstyle, hfinish, (Option.some.inj hfold).symm⟩

end LineLexer
