import LineLexer.Proofs.Scan.Language
import LineLexer.Proofs.Token.Cover

/-!
# Closing tags in embedded languages

A style sheet or script ends at the closing tag of its element, unless the tag stands within a piece
that hides it, such as a literal. Which spans hide a tag is a matter of the grammar (`hides`); that
no other span does is shown move by move (`Heeds`), and then holds of whole scans (`heeds_scan`).

Directly after a span of an embedded language comes another one of it or the bracket of a closing
tag. So at a closing tag that ends no hiding span, the language has been left.
-/

namespace LineLexer

/-! ## The closing tag of an element -/

/-- A text starts with the closing tag of an element: with its name in any letter case, and with no
further character of a name after it. -/
def ClosesAt (language : Language) (text : Text) : Prop :=
  ∃ tag more, text = tag ++ more ∧ foldCase tag = language.closingTag ∧
    ∀ next ∈ more.head?, isTagNameChar next = false

/-- The test for a closing tag is exact. -/
theorem atClosingTag_iff {language : Language} {text : Text} :
    atClosingTag language.closingTag text = true ↔ ClosesAt language text := by
  -- The tag itself is in small letters.
  have hlower : foldCase language.closingTag = language.closingTag := by
    cases language <;> decide
  rw [atClosingTag, Bool.and_eq_true, startsWithFolded_iff, hlower]
  constructor
  · rintro ⟨⟨tag, more, rfl, hlen, hfold⟩, hnext⟩
    refine ⟨tag, more, rfl, hfold, fun next hmem => ?_⟩
    rw [← hlen, List.drop_left, Option.mem_def.1 hmem] at hnext
    simpa using hnext
  · rintro ⟨tag, more, rfl, hfold, hnext⟩
    have hlen : tag.length = language.closingTag.length := by
      rw [← hfold, length_foldCase]
    refine ⟨⟨tag, more, rfl, hlen, hfold⟩, ?_⟩
    rw [← hlen, List.drop_left]
    cases hm : more.head? with
    | none => rfl
    | some next => simpa using hnext next hm

/-- A closing tag is an opening bracket, a slash and the name of its element, which no further
character of a name goes on with. -/
theorem ClosesAt.exists_name {language : Language} {text : Text} (h : ClosesAt language text) :
    ∃ name more, text = '<' :: '/' :: (name ++ more) ∧ foldCase name = language.element ∧
      ∀ next ∈ more.head?, isTagNameChar next = false := by
  obtain ⟨tag, more, rfl, hfold, hnext⟩ := h
  have hlen : tag.length = language.element.length + 2 := by
    simpa [Language.closingTag] using congrArg List.length hfold
  obtain ⟨c, d, name, rfl⟩ : ∃ c d name, tag = c :: d :: name := by
    match tag, hlen with
    | c :: d :: name, _ => exact ⟨c, d, name, rfl⟩
  -- Neither character has a capital form, so both are spelled as in the tag.
  simp only [foldCase, List.map_cons, Language.closingTag, List.cons.injEq] at hfold
  obtain rfl : c = '<' := eq_of_toLower_eq hfold.1 (by decide)
  obtain rfl : d = '/' := eq_of_toLower_eq hfold.2.1 (by decide)
  exact ⟨name, more, rfl, hfold.2.2, hnext⟩

/-- A closing tag starts with an opening bracket and a slash. -/
theorem ClosesAt.eq_cons {language : Language} {text : Text} (h : ClosesAt language text) :
    ∃ rest, text = '<' :: '/' :: rest := by
  obtain ⟨name, more, htext, -⟩ := h.exists_name
  exact ⟨name ++ more, htext⟩

/-! ## Spans that hold no closing tag -/

/-- Of the spans cut off a text, those of a language hold the start of its closing tag only where
they hide it, which they do at some of their characters. -/
def Heeds (language : Language) (hides : Span → Nat → Prop) (text : Text) (spans : List Span) :
    Prop :=
  ∀ front span back, spans = front ++ span :: back → span.language = language →
    ∀ i < span.text.length, ClosesAt language (text.drop ((spelled front).length + i)) →
      hides span i

section

variable {language : Language} {hides : Span → Nat → Prop} {text : Text}

/-- Spans that hide a closing tag anywhere may hold it. -/
theorem heeds_of_hides {spans : List Span} (h : ∀ span ∈ spans, ∀ i, hides span i) :
    Heeds language hides text spans := by
  rintro front span back rfl - i - -
  exact h span (by simp) i

/-- Spans of other languages do not matter. -/
theorem heeds_of_language {spans : List Span} (h : ∀ span ∈ spans, span.language ≠ language) :
    Heeds language hides text spans := by
  rintro front span back rfl hlang
  exact absurd hlang (h span (by simp))

/-- One piece heeds the closing tag if it holds none or hides it. -/
theorem heeds_carve_singleton {piece : Piece}
    (h : ∀ i < piece.width, ClosesAt language (text.drop i) →
      hides ⟨piece.kind, piece.language, text.take piece.width, piece.flags⟩ i) :
    Heeds language hides text (carve [piece] text) := by
  intro front span back hspans _ i hi hclose
  obtain ⟨rfl, -, rfl⟩ := eq_of_carve_singleton hspans
  rw [List.length_take] at hi
  rw [spelled_nil, List.length_nil, Nat.zero_add] at hclose
  exact h i (by omega) hclose

/-- Spans heed the closing tag if a first part of them does and the others do in the text that is
left. -/
theorem Heeds.append {spans more : List Span} (h : Heeds language hides text spans)
    (hmore : Heeds language hides (text.drop (spelled spans).length) more) :
    Heeds language hides text (spans ++ more) := by
  intro front span back hspans hlang i hi hclose
  rcases append_eq_append_cons hspans with ⟨mid, rfl, hback⟩ | ⟨mid, hfront, -⟩
  · refine hmore mid span back hback hlang i hi ?_
    rwa [List.drop_drop, ← Nat.add_assoc, ← List.length_append, ← spelled_append]
  · exact h front span mid hfront hlang i hi hclose

/-- A scan heeds the closing tag of an embedded language if all moves of the language do. -/
theorem heeds_scan (hl : language ≠ .markup)
    (hstep : ∀ past state c rest, state.language = language → Heeds language hides (c :: rest)
      (carve (step past state c rest).pieces (c :: rest)))
    (past : Recall) (state : ResumeState) (text : Text) :
    Heeds language hides text (scan past state text).spans := by
  fun_induction scan past state text with
  | case1 => exact heeds_of_language (by simp)
  | case2 past state c rest move spans more ih =>
    have hspans : Heeds language hides (c :: rest) spans := by
      by_cases hstate : state.language = language
      · exact hstep past state c rest hstate
      · refine heeds_of_language fun span hspan => ?_
        rcases language_of_mem_step hspan with hmarkup | ⟨hlang, -⟩
        · rw [hmarkup]
          exact hl.symm
        · rwa [hlang]
    refine hspans.append ?_
    rwa [spelled_carve, List.length_take, ← List.drop_eq_drop_min]

end

/-! ## Tokens at a closing tag -/

section

variable {language : Language} {hides : Span → Nat → Prop} {before rest : Text}
  {state : ResumeState}

/-- A token of a language that covers the start of its closing tag comes from a span that hides
it. -/
theorem exists_hiding_of_covers {scope : LinkScope} {base : Nat} {token : Token}
    (hheeds : Heeds language hides (before ++ rest) (scan .start state (before ++ rest)).spans)
    (hclose : ClosesAt language rest)
    (hmem : token ∈ (tokenize scope (before ++ rest) base state).tokens)
    (hcovers : token.Covers (base + byteLength before)) (hlang : token.language = language) :
    ∃ offset span inner outer, token ∈ placeFrom offset (span.split scope) ∧
      offset + byteLength inner = base + byteLength before ∧ span.text = inner ++ outer ∧
      hides span inner.length := by
  obtain ⟨front, span, back, inner, outer, hspans, hpart, hbefore, htext, hne, hrest⟩ :=
    exists_span_of_covers hmem hcovers (spelled_scan ..)
  have hspan : span.language = language := by
    rw [← (kind_of_mem_placeFrom_split hpart).2, hlang]
  refine ⟨_, span, inner, outer, hpart, ?_, htext, ?_⟩
  · rw [hbefore, byteLength_append, Nat.add_assoc]
  · apply hheeds front span back hspans hspan inner.length
    · rw [htext, List.length_append]
      have := List.length_pos_iff.2 hne
      omega
    · rwa [hbefore, ← List.length_append, List.drop_left]

/-- Where a span of an embedded language may follow, one does, or the bracket of a closing tag. -/
theorem covers_or_leaves_of_follows {back : List Span} (front : List Span) (scope : LinkScope)
    (base : Nat)
    (hspans : ∀ span ∈ back, span.text ≠ []) (hne : back ≠ [])
    (hnext : ∀ next ∈ back.head?, next.Follows language) :
    (∃ token ∈ placeFrom base ((front ++ back).flatMap (Span.split scope)),
        token.Covers (base + byteLength (spelled front)) ∧ token.language = language) ∨
      ∃ bracket ∈ placeFrom base ((front ++ back).flatMap (Span.split scope)),
        bracket.offset = base + byteLength (spelled front) ∧
          bracket.span.IsDelimiter "</".toList := by
  obtain ⟨next, more, rfl⟩ := List.exists_cons_of_ne_nil hne
  have hmem : ∀ token ∈ placeFrom (base + byteLength (spelled front)) (next.split scope),
      token ∈ placeFrom base ((front ++ next :: more).flatMap (Span.split scope)) := by
    intro token h
    rw [List.flatMap_append, placeFrom_append, Span.spelled_flatMap_split, List.flatMap_cons,
      placeFrom_append]
    exact List.mem_append_right _ (List.mem_append_left _ h)
  rcases hnext next rfl with hlang | hdelim
  · have hpos : 0 < byteLength (spelled (next.split scope)) := by
      rw [Span.spelled_split, Nat.pos_iff_ne_zero, Ne, byteLength_eq_zero]
      exact hspans next List.mem_cons_self
    obtain ⟨token, htoken, hcovers⟩ := exists_covers (next.split scope)
      (Nat.le_refl (base + byteLength (spelled front))) (by omega)
    exact .inl ⟨token, hmem token htoken, hcovers,
      (kind_of_mem_placeFrom_split htoken).2.trans hlang⟩
  · have hsplit : next.split scope = [next] := by
      simp [Span.split, hdelim.kind]
    refine .inr ⟨next.place _, hmem _ ?_, rfl, hdelim⟩
    rw [hsplit]
    exact List.mem_singleton.2 rfl

/-- Where a token of an embedded language stops before the end of the line, and at the start of a
line in that language, another token of it goes on or the bracket of a closing tag stands. -/
theorem covers_or_leaves (scope : LinkScope) (base : Nat) (hl : language ≠ .markup)
    (hrest : rest ≠ [])
    (hends : before = [] ∧ state.language = language ∨
      ∃ token ∈ (tokenize scope (before ++ rest) base state).tokens,
        token.stop = base + byteLength before ∧ token.language = language) :
    (∃ token ∈ (tokenize scope (before ++ rest) base state).tokens,
        token.Covers (base + byteLength before) ∧ token.language = language) ∨
      ∃ bracket ∈ (tokenize scope (before ++ rest) base state).tokens,
        bracket.offset = base + byteLength before ∧ bracket.span.IsDelimiter "</".toList := by
  have hspelled := spelled_scan .start state (before ++ rest)
  have htexts : ∀ span ∈ (scan .start state (before ++ rest)).spans, span.text ≠ [] :=
    fun _ => text_ne_nil_of_mem_scan
  rcases hends with ⟨rfl, hstate⟩ | ⟨token, htoken, hstop, hlang⟩
  · have hhead := head_scan .start state rest (by rwa [hstate])
    rw [hstate] at hhead
    refine covers_or_leaves_of_follows [] scope base htexts ?_ hhead
    intro hnil
    exact hrest (hspelled.symm.trans (congrArg spelled hnil))
  · simp only [tokenize] at htoken ⊢
    obtain ⟨front, span, back, hspans, hpart⟩ := exists_span_of_mem htoken
    have hspan : span.language = language := by
      rw [← (kind_of_mem_placeFrom_split hpart).2, hlang]
    have hbounds := bounds_of_mem_placeFrom hpart
    rw [Span.spelled_split] at hbounds
    have hnext := next_scan hspans (by rwa [hspan])
    rw [hspans] at hspelled htexts ⊢
    rw [show front ++ span :: back = (front ++ [span]) ++ back by simp] at hspelled htexts ⊢
    have hfront : byteLength (spelled (front ++ [span])) =
        byteLength (spelled front) + byteLength span.text := by
      simp
    by_cases hend : token.stop = base + byteLength (spelled (front ++ [span]))
    · -- The token is the last part of its span, and the next span starts where it stops.
      rw [spelled_append] at hspelled
      obtain ⟨hbefore, rfl⟩ := append_inj_of_byteLength hspelled.symm (by omega)
      rw [hbefore]
      rw [hspan] at hnext
      refine covers_or_leaves_of_follows _ scope base
        (fun other h => htexts other (List.mem_append_right _ h)) ?_ hnext
      rintro rfl
      exact hrest rfl
    · -- A part of the same span goes on where the token stops.
      have hle : base + byteLength (spelled front) ≤ base + byteLength before := by
        simp only [Token.stop] at hstop
        omega
      obtain ⟨part, hmem, hcovers⟩ := exists_covers (span.split scope) hle
        (by rw [Span.spelled_split]; omega)
      refine .inl ⟨part, ?_, hcovers, (kind_of_mem_placeFrom_split hmem).2.trans hspan⟩
      rw [List.flatMap_append, List.flatMap_append, placeFrom_append, placeFrom_append,
        Span.spelled_flatMap_split, List.flatMap_singleton]
      exact List.mem_append_left _ (List.mem_append_right _ hmem)

/-- Where a token of an embedded language stops at its closing tag, and where a line in that
language starts with it, a token that may cover the tag goes on or the bracket of the tag comes
next. -/
theorem hides_or_leaves {scope : LinkScope} {base : Nat} {MayCover : Token → Prop}
    (hl : language ≠ .markup) (hclose : ClosesAt language rest)
    (hcovers : ∀ token ∈ (tokenize scope (before ++ rest) base state).tokens,
      token.Covers (base + byteLength before) → token.language = language → MayCover token)
    (hends : before = [] ∧ state.language = language ∨
      ∃ token ∈ (tokenize scope (before ++ rest) base state).tokens,
        token.stop = base + byteLength before ∧ token.language = language) :
    (∃ token ∈ (tokenize scope (before ++ rest) base state).tokens,
        token.Covers (base + byteLength before) ∧ token.language = language ∧ MayCover token) ∨
      ∃ bracket ∈ (tokenize scope (before ++ rest) base state).tokens,
        bracket.offset = base + byteLength before ∧ bracket.span.IsDelimiter "</".toList := by
  obtain ⟨tail, htail⟩ := hclose.eq_cons
  have hrest : rest ≠ [] := by simp [htail]
  refine (covers_or_leaves scope base hl hrest hends).imp_left ?_
  rintro ⟨token, htoken, hc, hlang⟩
  exact ⟨token, htoken, hc, hlang, hcovers token htoken hc hlang⟩

end

end LineLexer
