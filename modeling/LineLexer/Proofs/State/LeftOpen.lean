import LineLexer.Proofs.Bytewise.Script
import LineLexer.Proofs.Embedding

/-!
# What a line leaves open

The state at the end of a line tells what the line ends with (`finish_leftBy`): if the state is one
within a comment, a literal, a template or another construct that goes on, then the last token that
has a text is a part of that construct, of its kind and its language, and in a script of the kind
that fits its validity. A literal of a script goes on only behind a backslash that ends the line.

What a state tells is written down state by state (`ResumeState.LeftBy`). Every move goes on in a
state that tells what the last span is that the move cuts off (`step_leaves`), and the last move of
a scan that cuts off anything decides about the end of the line (`scan_leaves`). A split around a
link changes neither the kind nor what a span ends with.
-/

namespace LineLexer

/-- What a state tells of the line before it: which language and kind the last token has, and in
places which character is the last one. Between constructs a state tells nothing. -/
def ResumeState.LeftBy (language : Language) (kind : Kind) (last : Option Char) :
    ResumeState → Prop
  | .markup .comment => (language, kind) = (.markup, .markupComment)
  | .markup .doctype => (language, kind) = (.markup, .markupDtd)
  | .markup .instruction => (language, kind) = (.markup, .markupProcessingInstruction)
  | .markup (.attributeValue _ _) => (language, kind) = (.markup, .markupTagAttributeValue)
  | .style (.comment _) => (language, kind) = (.style, .commentMultiline)
  | .style (.literal .double _) => (language, kind) = (.style, .literalStringDouble)
  | .style (.literal .single _) => (language, kind) = (.style, .literalChar)
  | .script .comment => (language, kind) = (.script, .commentMultiline)
  | .script (.interpolation _) => (language, kind) = (.script, .variableName)
  -- The text of a template goes on, or an interpolation has just been closed.
  | .script (.template true) => (language, kind) = (.script, .literalBackquote) ∨
      (language, kind) = (.script, .variableName) ∧ last = some '}'
  | .script (.template false) => (language, kind) = (.script, .errorString)
  | .script (.literal .double true) =>
    (language, kind) = (.script, .literalStringDouble) ∧ last = some '\\'
  | .script (.literal .double false) =>
    (language, kind) = (.script, .errorString) ∧ last = some '\\'
  | .script (.literal .single true) =>
    (language, kind) = (.script, .literalChar) ∧ last = some '\\'
  | .script (.literal .single false) =>
    (language, kind) = (.script, .errorChar) ∧ last = some '\\'
  | .markup .content | .markup (.startTag _) | .markup .endTag | .style (.code _)
  | .script .code => True

/-- A state tells of a span what comes last before it. -/
def Span.Leaves (span : Span) (state : ResumeState) : Prop :=
  state.LeftBy span.language span.kind span.text.getLast?

/-- A move goes on in a state that tells of the last span that the move cuts off a text. -/
structure Move.Leaves (move : Move) (text : Text) : Prop where
  leaves : ∀ last ∈ (carve move.pieces text).getLast?, last.Leaves move.next

/-- What comes last in a part of a text comes last in all of it. -/
theorem getLast?_take_add {text : Text} {first second : Nat} {c : Char}
    (h : ((text.drop first).take second).getLast? = some c) :
    (text.take (first + second)).getLast? = some c := by
  rw [List.take_add, List.getLast?_append, h]
  rfl

section

variable {text : Text} {next : ResumeState}

/-- A move may go on between constructs whatever it cuts off. -/
theorem Move.leaves_of_settled {move : Move}
    (h : ∀ language kind last, move.next.LeftBy language kind last) : move.Leaves text :=
  ⟨fun _ _ => h ..⟩

/-- A move of one piece may go on in a state that tells of it. -/
theorem Move.leaves_singleton {piece : Piece}
    (h : next.LeftBy piece.language piece.kind (text.take piece.width).getLast?) :
    (Move.mk [piece] next).Leaves text := by
  refine ⟨fun last hlast => ?_⟩
  simp only [carve] at hlast
  split at hlast
  · cases hlast
  · obtain rfl := Option.some.inj hlast
    exact h

/-- If the later pieces of a move cut off anything, its state has to tell of those. -/
theorem Move.leaves_cons {piece : Piece} {pieces : List Piece}
    (hne : carve pieces (text.drop piece.width) ≠ [])
    (h : (Move.mk pieces next).Leaves (text.drop piece.width)) :
    (Move.mk (piece :: pieces) next).Leaves text := by
  refine ⟨fun last hlast => h.leaves last ?_⟩
  simp only [carve] at hlast
  split at hlast
  · exact hlast
  · obtain ⟨span, spans, hspans⟩ := List.exists_cons_of_ne_nil hne
    rw [hspans, List.getLast?_cons_cons] at hlast
    rw [hspans]
    exact hlast

/-! ## Moves of markup -/

namespace Markup

/-- A construct that stays open leaves a piece of its kind. -/
theorem leaves_delimited {kind : Kind} {stay : MarkupState}
    (h : ∀ last, (ResumeState.markup stay).LeftBy .markup kind last) (delimiter : Text)
    (lead : Nat) (body text : Text) : (delimited delimiter kind stay lead body).Leaves text := by
  unfold delimited
  split
  · exact Move.leaves_of_settled fun _ _ _ => trivial
  · exact Move.leaves_singleton (h _)

/-- An attribute value that stays open leaves a piece of its kind. -/
theorem leaves_attributeValue (quote : Quote) (tag : TagKind) (lead : Nat) (body text : Text) :
    (attributeValue quote tag lead body).Leaves text := by
  unfold attributeValue
  split
  · exact Move.leaves_of_settled fun _ _ _ => trivial
  · exact Move.leaves_singleton rfl

/-- What a bracket opens and leaves open is a piece of its kind. -/
theorem leaves_opening (rest text : Text) : (opening rest).Leaves text := by
  unfold opening
  split
  · exact leaves_delimited (fun _ => by rfl) ..
  split
  · exact leaves_delimited (fun _ => by rfl) ..
  split
  · exact leaves_delimited (fun _ => by rfl) ..
  repeat' split
  all_goals exact Move.leaves_of_settled fun _ _ _ => trivial

/-- A move of markup goes on in a state that tells of the last span. -/
theorem move_leaves (afterOperator : Bool) (state : MarkupState) (c : Char) (rest : Text) :
    (move afterOperator state c rest).Leaves (c :: rest) := by
  cases state with
  | content =>
    simp only [move, content]
    split
    · exact Move.leaves_of_settled fun _ _ _ => trivial
    split
    · exact leaves_opening ..
    repeat' split
    all_goals exact Move.leaves_of_settled fun _ _ _ => trivial
  | startTag tag =>
    simp only [move, startTag]
    split
    · exact Move.leaves_of_settled fun _ _ _ => trivial
    split
    · exact Move.leaves_of_settled fun _ _ _ => trivial
    split
    · -- The content of any element starts between constructs.
      exact Move.leaves_of_settled fun _ _ _ => by cases tag <;> trivial
    split
    · exact Move.leaves_of_settled fun _ _ _ => trivial
    split
    · exact Move.leaves_of_settled fun _ _ _ => trivial
    split
    · exact leaves_attributeValue ..
    · exact Move.leaves_of_settled fun _ _ _ => trivial
  | endTag =>
    simp only [move, endTag]
    repeat' split
    all_goals exact Move.leaves_of_settled fun _ _ _ => trivial
  | attributeValue quote tag => exact leaves_attributeValue ..
  | comment => exact leaves_delimited (fun _ => by rfl) ..
  | doctype => exact leaves_delimited (fun _ => by rfl) ..
  | instruction => exact leaves_delimited (fun _ => by rfl) ..

end Markup

/-! ## Moves of style sheets -/

namespace Style

/-- A comment that stays open leaves a piece of a comment. -/
theorem leaves_comment (context : StyleContext) (lead : Nat) (body text : Text) :
    (comment context lead body).Leaves text := by
  unfold comment
  split
  · exact Move.leaves_of_settled fun _ _ _ => trivial
  · exact Move.leaves_singleton rfl

/-- A literal that stays open leaves a piece of its kind. -/
theorem leaves_literal (quote : Quote) (context : StyleContext) (lead : Nat) (body text : Text) :
    (literal quote context lead body).Leaves text := by
  unfold literal
  split
  · exact Move.leaves_of_settled fun _ _ _ => trivial
  · exact Move.leaves_singleton (by cases quote <;> rfl)

/-- What the contexts read by their own rules leaves nothing open. -/
theorem leaves_context (context : StyleContext) (c : Char) (rest text : Text) :
    (match context with
      | .selector => selector c rest
      | .atRule body => atRulePrelude body c rest
      | .propertyKey => propertyKey c rest
      | .propertyValue => propertyValue c rest).Leaves text := by
  cases context with
  | selector =>
    simp only [selector, pseudo]
    repeat' split
    all_goals exact Move.leaves_of_settled fun _ _ _ => trivial
  | atRule body =>
    simp only [atRulePrelude]
    repeat' split
    all_goals exact Move.leaves_of_settled fun _ _ _ => trivial
  | propertyKey =>
    simp only [propertyKey]
    repeat' split
    all_goals exact Move.leaves_of_settled fun _ _ _ => trivial
  | propertyValue =>
    simp only [propertyValue]
    repeat' split
    all_goals exact Move.leaves_of_settled fun _ _ _ => trivial

/-- A move of a style sheet goes on in a state that tells of the last span. -/
theorem move_leaves (state : StyleState) (c : Char) (rest : Text) :
    (move state c rest).Leaves (c :: rest) := by
  cases state with
  | comment context => exact leaves_comment ..
  | literal quote context => exact leaves_literal ..
  | code context =>
    simp only [move, contextMove]
    split
    · exact Move.leaves_of_settled fun _ _ _ => trivial
    split
    · exact leaves_comment ..
    split
    · exact Move.leaves_of_settled fun _ _ _ => trivial
    split
    · exact leaves_literal ..
    · exact leaves_context ..

end Style

/-! ## Moves of scripts -/

namespace Script

/-- A comment that stays open leaves a piece of a comment. -/
theorem leaves_comment (lead : Nat) (body text : Text) : (comment lead body).Leaves text := by
  unfold comment
  split
  · exact Move.leaves_of_settled fun _ _ _ => trivial
  · exact Move.leaves_singleton rfl

/-- A literal that goes on ends with a backslash. -/
theorem getLast?_literalBody {quote : Quote} {valid : Bool} {text : Text}
    (h : (literalBody quote valid text).ending = .continued) :
    (text.take (literalBody quote valid text).width).getLast? = some '\\' := by
  fun_induction literalBody quote valid text with
  | case1 => cases h
  | case2 => rfl
  | case3 valid rest hrest ih =>
    apply getLast?_take_add
    rw [Nat.add_comm 1, List.drop_succ_cons]
    exact ih h
  | case4 => cases h
  | case5 valid c rest hescape hquote ih => exact getLast?_take_add (ih h)

/-- A literal that goes on leaves a piece of the kind that fits its validity. -/
theorem leaves_literal (quote : Quote) (valid : Bool) (lead : Nat) (text : Text) :
    (literal quote valid lead (text.drop lead)).Leaves text := by
  unfold literal
  dsimp only
  by_cases hending : (literalBody quote valid (text.drop lead)).ending = .continued
  · have hlast := getLast?_take_add (getLast?_literalBody hending)
    rw [if_pos hending, hending]
    apply Move.leaves_singleton
    rw [piece, hlast]
    generalize (literalBody quote valid (text.drop lead)).valid = valid
    cases quote <;> cases valid <;> exact ⟨rfl, rfl⟩
  · rw [if_neg hending]
    exact Move.leaves_of_settled fun _ _ _ => trivial

/-- An interpolation that is closed ends with a brace. -/
theorem getLast?_interpolationBody {depth : Depth} {text : Text}
    (h : (interpolationBody depth text).openBraces = none) :
    (text.take (interpolationBody depth text).width).getLast? = some '}' := by
  fun_induction interpolationBody depth text with
  | case1 => cases h
  | case2 depth rest ih => exact getLast?_take_add (ih h)
  | case3 => rfl
  | case4 depth rest hdepth hopen ih => exact getLast?_take_add (ih h)
  | case5 depth c rest hopen hclose ih => exact getLast?_take_add (ih h)

/-- The state after an interpolation, closed or not, tells of it. -/
theorem leftBy_afterInterpolation {openBraces : Option Depth} {last : Option Char}
    (h : openBraces = none → last = some '}') :
    (ResumeState.script (afterInterpolation openBraces)).LeftBy .script .variableName last := by
  cases openBraces with
  | none => exact .inr ⟨rfl, h rfl⟩
  | some depth => rfl

/-- An interpolation leaves a piece of its kind. -/
theorem leaves_interpolation (depth : Depth) (text : Text) :
    (interpolation depth text).Leaves text :=
  Move.leaves_singleton (leftBy_afterInterpolation getLast?_interpolationBody)

/-- The text of a template that stays open, or the interpolation that ends it, leaves a piece of the
kind that fits. -/
theorem leaves_template (valid : Bool) (lead : Nat) (text : Text) :
    (template valid lead (text.drop lead)).Leaves text := by
  simp only [template]
  split
  · exact Move.leaves_of_settled fun _ _ _ => trivial
  · apply Move.leaves_singleton
    generalize (templateBody valid (text.drop lead)).valid = valid
    cases valid with
    | true => exact .inl rfl
    | false => rfl
  next hending =>
    -- The two characters that open the interpolation are there, so its piece is cut off last.
    obtain ⟨tail, htail⟩ := prefix_drop_of_interpolated hending
    rw [List.drop_drop] at htail
    apply Move.leaves_cons
    · refine carve_ne_nil ?_ ?_
      · simp only [piece, totalWidth]
        omega
      · rw [piece, ← htail]
        exact List.cons_ne_nil _ _
    · apply Move.leaves_singleton
      refine leftBy_afterInterpolation fun hclosed => getLast?_take_add ?_
      have hinner : (text.drop (lead + (templateBody valid (text.drop lead)).width)).drop 2 =
          (text.drop lead).drop ((templateBody valid (text.drop lead)).width + 2) := by
        rw [List.drop_drop, List.drop_drop, Nat.add_assoc]
      dsimp only [piece]
      rw [hinner]
      exact getLast?_interpolationBody hclosed

/-- A move of a script goes on in a state that tells of the last span. -/
theorem move_leaves (regexAllowed : Bool) (state : ScriptState) (c : Char) (rest : Text) :
    (move regexAllowed state c rest).Leaves (c :: rest) := by
  cases state with
  | comment => exact leaves_comment ..
  | literal quote valid => exact leaves_literal quote valid 0 (c :: rest)
  | template valid => exact leaves_template valid 0 (c :: rest)
  | interpolation depth => exact leaves_interpolation depth (c :: rest)
  | code =>
    simp only [move, code]
    split
    · exact Move.leaves_of_settled fun _ _ _ => trivial
    split
    · exact Move.leaves_of_settled fun _ _ _ => trivial
    split
    · unfold slash
      split
      · exact Move.leaves_of_settled fun _ _ _ => trivial
      split
      · exact leaves_comment ..
      repeat' split
      all_goals exact Move.leaves_of_settled fun _ _ _ => trivial
    split
    · exact leaves_template true 1 (c :: rest)
    split
    next quote _ => exact leaves_literal quote true 1 (c :: rest)
    · unfold plainCode
      repeat' split
      all_goals exact Move.leaves_of_settled fun _ _ _ => trivial

end Script

/-! ## Scans -/

/-- Every move goes on in a state that tells of the last span. -/
theorem step_leaves (past : Recall) (state : ResumeState) (c : Char) (rest : Text) :
    (step past state c rest).Leaves (c :: rest) := by
  cases state with
  | markup state => exact Markup.move_leaves ..
  | style state => exact Style.move_leaves ..
  | script state => exact Script.move_leaves ..

/-- A scan of a text that is not empty ends in a state that tells of the last span. -/
theorem scan_leaves (past : Recall) (state : ResumeState) {text : Text} (htext : text ≠ []) :
    ∃ last, (scan past state text).spans.getLast? = some last ∧
      last.Leaves (scan past state text).finish := by
  fun_induction scan past state text with
  | case1 => exact absurd rfl htext
  | case2 past state c rest move spans more ih =>
    by_cases hleft : (c :: rest).drop move.width = []
    · -- The move takes all that is left, so its own last span is the last one.
      have hmore : more = ⟨[], move.next⟩ := by simp only [more, hleft, scan_nil]
      have hne : spans ≠ [] := by
        refine carve_ne_nil ?_ (List.cons_ne_nil c rest)
        have hlength := List.drop_eq_nil_iff.1 hleft
        rw [List.length_cons] at hlength
        exact Nat.lt_of_lt_of_le (Nat.succ_pos _) hlength
      refine ⟨spans.getLast hne, ?_, ?_⟩
      · rw [hmore, List.append_nil, List.getLast?_eq_some_getLast hne]
      · rw [hmore]
        exact (step_leaves past state c rest).leaves _ (List.getLast?_eq_some_getLast hne)
    · obtain ⟨last, hlast, hleaves⟩ := ih hleft
      refine ⟨last, ?_, hleaves⟩
      rw [List.getLast?_append, hlast]
      rfl

/-! ## Lines -/

/-- Spans end with what the last one of them ends with. -/
theorem getLast?_spelled {spans : List Span} {last : Span} (h : spans.getLast? = some last)
    (hne : last.text ≠ []) : (spelled spans).getLast? = last.text.getLast? := by
  obtain ⟨front, rfl⟩ := List.getLast?_eq_some_iff.1 h
  rw [spelled_append, spelled_cons, spelled_nil, List.append_nil,
    List.getLast?_append_of_ne_nil _ hne]

/-- The painted parts of spans spell the same text. -/
theorem spelled_painted (scope : LinkScope) (span : Span) :
    spelled (span.painted scope) = span.text := by
  have hfilter : ∀ parts : List Span,
      spelled (parts.filter fun part => !part.text.isEmpty) = spelled parts := by
    intro parts
    induction parts with
    | nil => rfl
    | cons part parts ih =>
      rw [List.filter_cons]
      split
      · rw [spelled_cons, spelled_cons, ih]
      next h =>
        have hempty : part.text = [] := by simpa using h
        rw [spelled_cons, hempty, ih, List.nil_append]
  rw [Span.painted, hfilter, Span.spelled_split]

end

/-- The last painted part of spans is of the last span, and ends with what it ends with. -/
theorem exists_getLast?_painted (scope : LinkScope) {spans : List Span} {last : Span}
    (h : spans.getLast? = some last) (hne : last.text ≠ []) :
    ∃ part, (spans.flatMap (Span.painted scope)).getLast? = some part ∧
      part.kind = last.kind ∧ part.language = last.language ∧
      part.text.getLast? = last.text.getLast? := by
  have hpainted : last.painted scope ≠ [] := by
    intro hnil
    rw [← spelled_painted scope last, hnil] at hne
    exact hne rfl
  have hpart := List.getLast?_eq_some_getLast hpainted
  generalize (last.painted scope).getLast hpainted = part at hpart
  have hmem := List.mem_of_getLast? hpart
  have htext : part.text ≠ [] := by simpa using (List.mem_filter.1 hmem).2
  obtain ⟨front, rfl⟩ := List.getLast?_eq_some_iff.1 h
  refine ⟨part, ?_, (Span.kind_of_mem_painted hmem).1, (Span.kind_of_mem_painted hmem).2, ?_⟩
  · rw [List.flatMap_append, List.flatMap_singleton, List.getLast?_append_of_ne_nil _ hpainted,
      hpart]
  · rw [← getLast?_spelled hpart htext, spelled_painted]

/-- The state at the end of a line that is not empty tells what the line leaves open: the last token
that has a text ends where the line ends, and its language, its kind and its last character are as
the state says. -/
theorem finish_leftBy (scope : LinkScope) {line : Text} (hline : line ≠ []) (base : Nat)
    (state : ResumeState) :
    let lexed := tokenize scope line base state
    ∃ last, (lexed.tokens.filter Token.isPaintable).getLast? = some last ∧
      last.text.getLast? = line.getLast? ∧
      lexed.finish.LeftBy last.language last.kind line.getLast? := by
  intro lexed
  obtain ⟨span, hspan, hleaves⟩ := scan_leaves .start state hline
  have htext := text_ne_nil_of_mem_scan (List.mem_of_getLast? hspan)
  have hend : line.getLast? = span.text.getLast? := by
    rw [← getLast?_spelled hspan htext, spelled_scan]
  obtain ⟨part, hpart, hkind, hlanguage, hlast⟩ := exists_getLast?_painted scope hspan htext
  rw [← map_span_filter_tokenize scope line base, List.getLast?_map,
    Option.map_eq_some_iff] at hpart
  obtain ⟨last, hmem, rfl⟩ := hpart
  refine ⟨last, hmem, hlast.trans hend.symm, ?_⟩
  rw [show last.language = span.language from hlanguage, show last.kind = span.kind from hkind,
    hend]
  exact hleaves

/-- A literal with a malformed escape goes on behind a backslash, and its token is an error. -/
theorem finish_leftBy_of_backslash :
    let line := "x = \"\\u\x7b\x7d\\".toList
    let lexed := tokenize .off line 0 (.script .code)
    line ≠ [] ∧ lexed.finish = .script (.literal .double false) ∧
      ∃ last, (lexed.tokens.filter Token.isPaintable).getLast? = some last ∧
        last.text.getLast? = line.getLast? ∧
        lexed.finish.LeftBy last.language last.kind line.getLast? :=
  ⟨by decide, by decide +kernel, finish_leftBy .off (by decide) 0 (.script .code)⟩

end LineLexer
