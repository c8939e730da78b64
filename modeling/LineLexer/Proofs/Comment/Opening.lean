import LineLexer.Proofs.Grammar.Style
import LineLexer.Proofs.Number.Grammar
import LineLexer.Proofs.Scan.Language
import LineLexer.Proofs.Token.Reach

/-!
# The opening of a comment in style sheets

In all contexts of a style sheet a slash and an asterisk open a comment, unless they stand in a
comment or a literal already. The test for them is made where a move starts, so it has to be seen
that no other move goes over them. The pieces of code hold no slash behind their first character,
except for one: a selector takes slashes in a row as one piece, and of the slashes before an
asterisk it takes the last one as well (`CodeMove.hides_or_slashes`). This is the only way to miss
the opening (`opening_hidden_iff`).
-/

namespace LineLexer

namespace Style

/-- The kinds of comments and of literals, which hide the opening of a comment. -/
def hidingKinds : List Kind :=
  [.commentMultiline, .literalStringDouble, .literalChar]

section

variable {context : StyleContext} {c : Char} {tail inner more : Text} {first later : List Span}
  {span : Span}

/-- Literals are of kinds that hide an opening. -/
theorem literalKind_mem_hidingKinds (quote : Quote) : literalKind quote ∈ hidingKinds := by
  cases quote <;> decide

/-- One piece that holds the start of an opening starts with it or holds it further on. -/
theorem opening_of_carve_singleton {piece : Piece}
    (hcarve : carve [piece] (c :: tail) = first ++ span :: later)
    (htext : c :: tail = spelled first ++ (inner ++ '/' :: '*' :: more))
    (hlt : inner.length < span.text.length) :
    first = [] ∧ (c = '/' ∧ tail.head? = some '*' ∨ ∃ before, inner = c :: before ∧
      tail = before ++ '/' :: '*' :: more ∧ before.length + 1 < piece.width) := by
  obtain ⟨rfl, -, rfl⟩ := eq_of_carve_singleton hcarve
  refine ⟨rfl, ?_⟩
  have hwidth := List.length_take_le piece.width (c :: tail)
  rw [spelled_nil, List.nil_append] at htext
  cases inner with
  | nil =>
    obtain ⟨rfl, rfl⟩ := List.cons.inj htext
    exact .inl ⟨rfl, rfl⟩
  | cons d before =>
    obtain ⟨rfl, rfl⟩ := List.cons.inj htext
    exact .inr ⟨before, rfl, rfl, Nat.lt_of_lt_of_le hlt hwidth⟩

/-- A stretch that goes over a slash is of a class with the slash. -/
theorem slash_of_isStretch {p : Char → Bool} {width : Nat} {before behind : Text}
    (h : IsStretch p (before ++ '/' :: behind) width) (hlt : before.length < width) :
    p '/' = true := by
  rw [List.append_cons] at h
  exact h.forall_mem (by rwa [List.length_append]) '/' (by simp)

/-- In code the piece that holds the opening of a comment hides it, or it is of slashes in a
selector. -/
theorem CodeMove.hides_or_slashes {move : Move} (h : CodeMove context c tail move)
    (hcarve : carve move.pieces (c :: tail) = first ++ span :: later)
    (hlang : span.language = .style)
    (htext : c :: tail = spelled first ++ (inner ++ '/' :: '*' :: more))
    (hlt : inner.length < span.text.length) :
    span.kind ∈ hidingKinds ∨
      first = [] ∧ context = .selector ∧ inner ≠ [] ∧ ∀ d ∈ inner, d = '/' := by
  have hmem : span ∈ carve move.pieces (c :: tail) := by
    rw [hcarve]
    exact List.mem_append_right _ List.mem_cons_self
  obtain ⟨piece, hpiece, hkind, hpieceLang, -⟩ := exists_piece_of_mem_carve hmem
  cases h with
  | blanks hblank =>
    -- Neither the first blank nor one behind it is a slash.
    obtain ⟨-, ⟨rfl, -⟩ | ⟨before, -, rfl, hwidth⟩⟩ := opening_of_carve_singleton hcarve htext hlt
    · exact absurd hblank (by decide)
    · have hblanks : IsStretch isBlank (before ++ '/' :: '*' :: more) _ :=
        isStretch_runLength (fun _ h => h) _
      exact absurd (slash_of_isStretch hblanks (Nat.lt_of_succ_lt_succ hwidth)) (by decide)
  | comment =>
    rw [hkind, kind_of_mem_comment hpiece]
    exact .inl (by decide)
  | closingTag =>
    -- The pieces of a closing tag are markup, but the span is of the style sheet.
    have hmarkup : ∀ piece ∈ (closeElement styleTag).pieces, piece.language = .markup := by
      simp [closeElement]
    rw [hpieceLang, hmarkup piece hpiece] at hlang
    cases hlang
  | literal =>
    rw [hkind, kind_of_mem_literal hpiece]
    exact .inl (literalKind_mem_hidingKinds _)
  | slashes hselector hslash hstar =>
    obtain ⟨rfl, ⟨-, hhead⟩ | ⟨before, rfl, rfl, hwidth⟩⟩ :=
      opening_of_carve_singleton hcarve htext hlt
    · exact absurd hhead hstar
    · -- The run of slashes goes over the one that opens the comment.
      refine .inr ⟨rfl, hselector, List.cons_ne_nil _ _, fun d hd => ?_⟩
      have hslashes : IsStretch (· == '/') (before ++ '/' :: '*' :: more) _ :=
        isStretch_runLength (fun _ h => h) _
      rcases List.mem_cons.1 hd with rfl | hd
      · exact hslash
      · have hle := Nat.le_of_lt (Nat.lt_of_succ_lt_succ hwidth)
        simpa using hslashes.forall_mem hle d hd
  | plain hopener htag hplain =>
    -- The first character opens no comment, and no inner one is a slash.
    obtain ⟨kind, width, flags, next, rfl, hinner⟩ := hplain
    obtain ⟨-, ⟨rfl, hhead⟩ | ⟨before, -, rfl, hwidth⟩⟩ :=
      opening_of_carve_singleton hcarve htext hlt
    · exact absurd (by simp [hhead]) hopener
    · exact absurd (slash_of_isStretch hinner (Nat.lt_of_succ_lt_succ hwidth)) (by decide)

/-- In a selector slashes in a row are taken up to the asterisk behind them. -/
theorem exists_move_slashes {slashes : Text} (hne : slashes ≠ [])
    (hslashes : ∀ d ∈ slashes, d = '/') (more : Text) :
    ∃ tail, slashes ++ '/' :: '*' :: more = '/' :: tail ∧
      move (.code .selector) '/' tail = code .identifier (slashes.length + 1) .selector := by
  obtain ⟨d, before, rfl⟩ := List.exists_cons_of_ne_nil hne
  obtain rfl := hslashes d List.mem_cons_self
  have hbefore : ∀ d ∈ before ++ ['/'], (d == '/') = true := by
    intro d hd
    rcases List.mem_append.1 hd with hd | hd
    · exact beq_iff_eq.2 (hslashes d (List.mem_cons_of_mem _ hd))
    · exact beq_iff_eq.2 (List.mem_singleton.1 hd)
  have hrun : runLength (· == '/') (before ++ '/' :: '*' :: more) = before.length + 1 := by
    have h : runLength (· == '/') ((before ++ ['/']) ++ '*' :: more) = (before ++ ['/']).length :=
      Script.runLength_append_of_head? hbefore (by simp)
    simpa using h
  have hstar : (before ++ '/' :: '*' :: more).head? ≠ some '*' := by
    cases before with
    | nil => simp
    | cons d before => simp [hslashes d (by simp)]
  refine ⟨before ++ '/' :: '*' :: more, rfl, ?_⟩
  generalize before ++ '/' :: '*' :: more = tail at hrun hstar
  rw [List.length_cons, ← hrun]
  simp [move, contextMove, isBlank, hstar, Quote.ofChar?, selector]

end

end Style

/-! ## Tokens at an opening -/

/-- A scan of a line comes in a selector to slashes with a text behind them. -/
def ComesToSlashes (state : ResumeState) (line rest : Text) : Prop :=
  ∃ spans slashes, slashes ≠ [] ∧ (∀ c ∈ slashes, c = '/') ∧
    Reaches .start state line spans (.style (.code .selector)) (slashes ++ rest)

section

variable {scope : LinkScope} {base : Nat} {state : ResumeState} {before more : Text}
  {token : Token}

/-- The opening of a comment that a token of a style sheet covers is hidden by the token, or the
scan comes to slashes before it. -/
theorem hidden_or_comesToSlashes
    (htoken : token ∈ (tokenize scope (before ++ '/' :: '*' :: more) base state).tokens)
    (hcovers : token.Covers (base + byteLength before)) (hlang : token.language = .style) :
    token.kind ∈ Style.hidingKinds ∨
      ComesToSlashes state (before ++ '/' :: '*' :: more) ('/' :: '*' :: more) := by
  obtain ⟨front, span, back, inner, outer, hspans, hpart, hbefore, htext, hne, hrest⟩ :=
    exists_span_of_covers htoken hcovers (spelled_scan ..)
  obtain ⟨hkind, hspanLang⟩ := kind_of_mem_placeFrom_split hpart
  rw [hlang, eq_comm] at hspanLang
  obtain ⟨earlier, first, later, here, c, tail, hreach, hcarve, rfl⟩ :=
    exists_reaches .start state _ span back front hspans
  have hmem : span ∈ carve (step (earlier.foldl Recall.note .start) here c tail).pieces
      (c :: tail) := by
    rw [hcarve]
    exact List.mem_append_right _ List.mem_cons_self
  -- The text from where the move starts on, up to the opening.
  have htail : c :: tail = spelled first ++ (inner ++ '/' :: '*' :: more) := by
    have hline := hreach.text_eq
    rw [hbefore, spelled_append, List.append_assoc, List.append_assoc] at hline
    exact (List.append_cancel_left hline).symm
  have hlt : inner.length < span.text.length := by
    rw [htext, List.length_append]
    exact Nat.lt_add_of_pos_right (List.length_pos_iff.2 hne)
  -- The move is one of the style sheet, since its span is.
  obtain ⟨hhere, -⟩ := (language_of_mem_step hmem).resolve_left (by rw [hspanLang]; decide)
  rw [hkind]
  cases here with
  | markup here => cases hspanLang.symm.trans hhere
  | script here => cases hspanLang.symm.trans hhere
  | style here =>
    obtain ⟨piece, hpiece, hpieceKind, -⟩ := exists_piece_of_mem_carve hmem
    cases here with
    | comment context =>
      rw [hpieceKind, Style.kind_of_mem_comment hpiece]
      exact .inl (by decide)
    | literal quote context =>
      rw [hpieceKind, Style.kind_of_mem_literal hpiece]
      exact .inl (Style.literalKind_mem_hidingKinds _)
    | code context =>
      have hmove := Style.codeMove_contextMove context c tail
      refine (hmove.hides_or_slashes hcarve hspanLang htail hlt).imp_right ?_
      rintro ⟨rfl, rfl, hinner, hslashes⟩
      rw [spelled_nil, List.nil_append] at htail
      exact ⟨earlier, inner, hinner, hslashes, htail ▸ hreach⟩

/-- Where a scan comes to slashes before the opening of a comment, their token takes its slash. -/
theorem ComesToSlashes.exists_token
    (h : ComesToSlashes state (before ++ '/' :: '*' :: more) ('/' :: '*' :: more))
    (scope : LinkScope) (base : Nat) :
    ∃ token ∈ (tokenize scope (before ++ '/' :: '*' :: more) base state).tokens,
      token.Covers (base + byteLength before) ∧ token.kind = .identifier ∧
        ∀ c ∈ token.text, c = '/' := by
  obtain ⟨spans, slashes, hne, hslashes, hreach⟩ := h
  have hbefore : before = spelled spans ++ slashes := by
    have hline := hreach.text_eq
    rw [← List.append_assoc] at hline
    exact List.append_cancel_right hline
  obtain ⟨tail, htail, hmove⟩ := Style.exists_move_slashes hne hslashes more
  have htake : ('/' :: tail).take (slashes.length + 1) = slashes ++ ['/'] := by
    rw [← htail, List.take_length_add_append]
    rfl
  rw [htail] at hreach
  have hthere := hreach.piece (Nat.succ_pos _) hmove
  rw [htake] at hthere
  refine ⟨_, hthere.place_mem_tokenize (by cases scope <;> rfl) base, ?_, rfl, ?_⟩
  · rw [hbefore]
    simp [Token.Covers, Token.stop, Token.length, Span.place, Nat.add_assoc, Char.utf8Size_pos]
  · intro c hc
    rcases List.mem_append.1 hc with hc | hc
    · exact hslashes c hc
    · exact List.mem_singleton.1 hc

/-- A slash and an asterisk in a style sheet are within a comment or a literal, which they may open,
if and only if the scan does not come in a selector to slashes directly before them. If it does, a
token of slashes takes the slash of the opening in. -/
theorem opening_hidden_iff
    (htoken : token ∈ (tokenize scope (before ++ '/' :: '*' :: more) base state).tokens)
    (hcovers : token.Covers (base + byteLength before)) (hlang : token.language = .style) :
    (token.kind ∈ [.commentMultiline, .literalStringDouble, .literalChar] ↔
      ¬ComesToSlashes state (before ++ '/' :: '*' :: more) ('/' :: '*' :: more)) ∧
    (token.kind ∉ [.commentMultiline, .literalStringDouble, .literalChar] →
      token.kind = .identifier ∧ ∀ c ∈ token.text, c = '/') := by
  have hcases := hidden_or_comesToSlashes htoken hcovers hlang
  have hslashes : ComesToSlashes state (before ++ '/' :: '*' :: more) ('/' :: '*' :: more) →
      token.kind = .identifier ∧ ∀ c ∈ token.text, c = '/' := by
    intro hcomes
    obtain ⟨other, hother, hotherCovers, hkind, htext⟩ := hcomes.exists_token scope base
    obtain rfl := eq_of_covers htoken hother hcovers hotherCovers
    exact ⟨hkind, htext⟩
  refine ⟨⟨fun hkind hcomes => ?_, fun hnot => hcases.resolve_right hnot⟩,
    fun hnot => hslashes (hcases.resolve_left hnot)⟩
  rw [(hslashes hcomes).1] at hkind
  exact absurd hkind (by decide)

end

/-- In a context other than a selector a slash before the opening is a token of its own. -/
theorem opening_hidden_of_propertyKey :
    let line := ['/'] ++ '/' :: '*' :: "a*/".toList
    let state := ResumeState.style (.code .propertyKey)
    let token : Token := ⟨.commentMultiline, .style, 1, "/*a*/".toList, .empty⟩
    token ∈ (tokenize .comments line 0 state).tokens ∧ token.Covers (0 + byteLength ['/']) ∧
      token.language = .style ∧ ¬ComesToSlashes state line ('/' :: '*' :: "a*/".toList) := by
  intro line state token
  have htoken : token ∈ (tokenize .comments line 0 state).tokens := by
    decide +kernel
  have hcovers : token.Covers (0 + byteLength ['/']) := by
    decide
  exact ⟨htoken, hcovers, rfl, (opening_hidden_iff htoken hcovers rfl).1.1 (by decide)⟩

/-- In a selector the opening of a comment is missed if a slash stands before it. -/
theorem exists_opening_not_hidden : ∃ (before more : Text) (state : ResumeState) (token : Token),
    token ∈ (tokenize .off (before ++ '/' :: '*' :: more) 0 state).tokens ∧
      token.Covers (0 + byteLength before) ∧ token.language = .style ∧
      token.kind ∉ [.commentMultiline, .literalStringDouble, .literalChar] := by
  let token : Token := ⟨.identifier, .style, 0, "//".toList, .empty⟩
  have htoken : token ∈ (tokenize .off (['/'] ++ '/' :: '*' :: "a*/".toList) 0
      (.style (.code .selector))).tokens := by
    decide +kernel
  exact ⟨['/'], "a*/".toList, .style (.code .selector), token, htoken, by decide, rfl, by decide⟩

end LineLexer
