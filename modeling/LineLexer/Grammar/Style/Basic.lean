import LineLexer.Grammar.ClosingTag

/-!
# Pieces of style sheets

The moves that take one piece of a style sheet, and the constructs that all contexts share: comments
and quoted literals. Both return to the context that they stand in.
-/

namespace LineLexer.Style

/-- Characters of selectors, property names and values. -/
def isNameChar (c : Char) : Bool :=
  c.isAlphanum || c == '-' || c == '_' || isNonAscii c

/-- A piece of a style sheet without attributes. -/
def piece (kind : Kind) (width : Nat) : Piece :=
  ⟨kind, width, .style, .empty⟩

/-- The move that takes one piece and goes on in a state of a style sheet. -/
def one (kind : Kind) (width : Nat) (next : StyleState) : Move :=
  ⟨[piece kind width], .style next⟩

/-- The move that takes one piece of code and goes on in a context. -/
def code (kind : Kind) (width : Nat) (next : StyleContext) : Move :=
  one kind width (.code next)

@[simp] theorem width_one (kind : Kind) (width : Nat) (next : StyleState) :
    (one kind width next).width = width := by
  simp [one, piece]

@[simp] theorem width_code (kind : Kind) (width : Nat) (next : StyleContext) :
    (code kind width next).width = width :=
  width_one ..

/-! ## Comments and literals -/

/-- Takes the body of a comment, after `lead` characters that open it. -/
def comment (context : StyleContext) (lead : Nat) (body : Text) : Move :=
  match commentWidth? styleTag body with
  | some width => code .commentMultiline (lead + width) context
  | none => one .commentMultiline (lead + body.length) (.comment context)

/-- The number of characters through the closing quote of a literal, whose body may hold any
character after a backslash; none if the literal stays open. -/
def closingQuoteWidth? (quote : Quote) : Text → Option Nat
  | [] => none
  | [c] => if c = quote.char then some 1 else none
  | c :: d :: rest =>
    if c = '\\' then (closingQuoteWidth? quote rest).map (· + 2)
    else if c = quote.char then some 1
    else (closingQuoteWidth? quote (d :: rest)).map (· + 1)

/-- The closing quote of a literal, by its first character. -/
theorem closingQuoteWidth?_cons (quote : Quote) (c : Char) (rest : Text) :
    closingQuoteWidth? quote (c :: rest) =
      if c = '\\' then (closingQuoteWidth? quote (rest.drop 1)).map (· + 2)
      else if c = quote.char then some 1
      else (closingQuoteWidth? quote rest).map (· + 1) := by
  cases rest with
  | cons d rest => rw [closingQuoteWidth?, List.drop_one, List.tail_cons]
  | nil =>
    have hquote : '\\' ≠ quote.char := by cases quote <;> decide
    rw [closingQuoteWidth?]
    split
    next hc => simp [hc, hquote, closingQuoteWidth?]
    next => simp [closingQuoteWidth?]

/-- The kind of a literal. -/
def literalKind : Quote → Kind
  | .double => .literalStringDouble
  | .single => .literalChar

/-- Takes the body of a literal, after `lead` characters that open it. -/
def literal (quote : Quote) (context : StyleContext) (lead : Nat) (body : Text) : Move :=
  match closingQuoteWidth? quote body with
  | some width => code (literalKind quote) (lead + width) context
  | none => one (literalKind quote) (lead + body.length) (.literal quote context)

/-! ## What is taken is not empty -/

/-- A comment after its opening holds the opening. -/
theorem comment_width_ge (context : StyleContext) (lead : Nat) (body : Text) :
    lead ≤ (comment context lead body).width := by
  unfold comment
  split <;> simp

/-- The rest of a comment is not empty, or the comment ends where it stands. -/
theorem comment_progresses (context : StyleContext) (c : Char) (rest : Text) :
    (comment context 0 (c :: rest)).Progresses (.style (.comment context)) := by
  unfold comment
  split
  · exact .inr Nat.one_pos
  · exact .inl (by simp)

/-- A closing quote has a width. -/
theorem closingQuoteWidth?_pos {quote : Quote} {body : Text} {width : Nat}
    (h : closingQuoteWidth? quote body = some width) : 0 < width := by
  unfold closingQuoteWidth? at h
  split at h
  · cases h
  · split at h <;> cases h
    exact Nat.one_pos
  · split at h
    · obtain ⟨_, _, rfl⟩ := Option.map_eq_some_iff.1 h
      exact Nat.succ_pos _
    split at h
    · cases h
      exact Nat.one_pos
    · obtain ⟨_, _, rfl⟩ := Option.map_eq_some_iff.1 h
      exact Nat.succ_pos _

/-- A literal is not empty. -/
theorem literal_width_pos (quote : Quote) (context : StyleContext) (lead : Nat) {body : Text}
    (hb : lead = 0 → body ≠ []) : 0 < (literal quote context lead body).width := by
  unfold literal
  split
  next width h =>
    have := closingQuoteWidth?_pos h
    simp only [width_code]
    omega
  next =>
    simp only [width_one]
    rcases Nat.eq_zero_or_pos lead with h | h
    · have := List.length_pos_iff.2 (hb h)
      omega
    · omega

end LineLexer.Style
