import LineLexer.Proofs.Scan.Reach
import LineLexer.Proofs.Token.Cover

/-!
# The tokens of what a scan has cut off

A statement on the token at a place of a line is shown of the move that cuts it off. A span that a
scan has cut off when it stands before a text is one of the spans of the line
(`Reaches.exists_spans_eq`), so tokens of its kind cover it (`Reaches.exists_covers`), and where no
links are looked for it is a token itself (`Reaches.place_mem_tokenize`). What every move keeps,
with the spans cut off before it, holds wherever a scan stands (`Reaches.invariant`).
-/

namespace LineLexer

section

variable {past : Recall} {state next : ResumeState} {text left : Text} {spans : List Span}

/-- A property of the spans cut off so far and of the state, which every move keeps, is kept by all
moves up to where a scan stands. -/
theorem Reaches.invariant (property : List Span → ResumeState → Prop)
    (hmove : ∀ past spans state c rest, property spans state →
      property (spans ++ carve (LineLexer.step past state c rest).pieces (c :: rest))
        (LineLexer.step past state c rest).next)
    (h : Reaches past state text spans next left) :
    ∀ before, property before state → property (before ++ spans) next := by
  induction h with
  | here =>
    intro before hstart
    rwa [List.append_nil]
  | move _ ih =>
    intro before hstart
    rw [← List.append_assoc]
    exact ih _ (hmove _ before _ _ _ hstart)

/-- A scan whose next move takes one piece comes to stand behind it. -/
theorem Reaches.piece {here : ResumeState} {c : Char} {rest : Text} {kind : Kind}
    {language : Language} {flags : Flags} {width : Nat}
    (h : Reaches past state text spans here (c :: rest)) (hwidth : 0 < width)
    (hstep : LineLexer.step (spans.foldl Recall.note past) here c rest =
      ⟨[⟨kind, width, language, flags⟩], next⟩) :
    Reaches past state text (spans ++ [⟨kind, language, (c :: rest).take width, flags⟩]) next
      ((c :: rest).drop width) := by
  have hcarve : carve [⟨kind, width, language, flags⟩] (c :: rest) =
      [⟨kind, language, (c :: rest).take width, flags⟩] :=
    carve_singleton hwidth (List.cons_ne_nil c rest)
  have hmove := Reaches.step (spans.foldl Recall.note past) here c rest
  rw [hstep, hcarve, Move.width_singleton] at hmove
  exact h.trans hmove

/-- What a scan has cut off are the first spans of the line. -/
theorem Reaches.exists_spans_eq (h : Reaches past state text spans next left) :
    ∃ more, (scan past state text).spans = spans ++ more :=
  ⟨_, congrArg Scanned.spans h.scan_eq⟩

end

section

variable {state next : ResumeState} {line left : Text} {spans : List Span} {span : Span}

/-- A position within a span of a line is covered by a token of its kind and language. -/
theorem exists_covers_of_spans_eq (scope : LinkScope) (base : Nat) {front back : List Span}
    (h : (scan .start state line).spans = front ++ span :: back) {pos : Nat}
    (hle : base + byteLength (spelled front) ≤ pos)
    (hlt : pos < base + byteLength (spelled front) + byteLength span.text) :
    ∃ token ∈ (tokenize scope line base state).tokens,
      token.Covers pos ∧ token.kind = span.kind ∧ token.language = span.language := by
  obtain ⟨token, htoken, hcovers⟩ := exists_covers (span.split scope) hle
    (by rwa [Span.spelled_split])
  refine ⟨token, ?_, hcovers, kind_of_mem_placeFrom_split htoken⟩
  simp only [tokenize, h, List.flatMap_append, List.flatMap_cons, placeFrom_append,
    Span.spelled_flatMap_split]
  exact List.mem_append_right _ (List.mem_append_left _ htoken)

/-- Every position within a span that a scan has cut off last is covered by a token of its kind. -/
theorem Reaches.exists_covers (h : Reaches .start state line (spans ++ [span]) next left)
    (scope : LinkScope) (base : Nat) {pos : Nat} (hle : base + byteLength (spelled spans) ≤ pos)
    (hlt : pos < base + byteLength (spelled spans) + byteLength span.text) :
    ∃ token ∈ (tokenize scope line base state).tokens,
      token.Covers pos ∧ token.kind = span.kind ∧ token.language = span.language := by
  obtain ⟨more, hmore⟩ := h.exists_spans_eq
  rw [List.append_assoc] at hmore
  exact exists_covers_of_spans_eq scope base hmore hle hlt

/-- A span of a line is a token where its kind is not searched for links. -/
theorem place_mem_tokenize_of_spans_eq {front back : List Span}
    (h : (scan .start state line).spans = front ++ span :: back) {scope : LinkScope}
    (hscope : scope.appliesTo span.kind = false) (base : Nat) :
    span.place (base + byteLength (spelled front)) ∈ (tokenize scope line base state).tokens := by
  have hsplit : span.split scope = [span] := by simp [Span.split, hscope]
  simp only [tokenize, h, List.flatMap_append, List.flatMap_cons, placeFrom_append, hsplit,
    Span.spelled_flatMap_split]
  exact List.mem_append_right _ List.mem_cons_self

/-- A span that a scan has cut off last is a token where its kind is not searched for links. -/
theorem Reaches.place_mem_tokenize (h : Reaches .start state line (spans ++ [span]) next left)
    {scope : LinkScope} (hscope : scope.appliesTo span.kind = false) (base : Nat) :
    span.place (base + byteLength (spelled spans)) ∈ (tokenize scope line base state).tokens := by
  obtain ⟨more, hmore⟩ := h.exists_spans_eq
  rw [List.append_assoc] at hmore
  exact place_mem_tokenize_of_spans_eq hmore hscope base

end

end LineLexer
