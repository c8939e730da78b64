import LineLexer.Proofs.Scan.Cut
import LineLexer.Proofs.Token.Reach

/-!
# The next token

Where a scan stands, the tokens of what it has cut off come first on the line. The token behind them
is the next one (`IsNext`), and there is at most one (`IsNext.unique`). It is of the kind of a piece
of the move there (`Reaches.exists_piece_of_isNext`), and if a span is cut off as it is, it is the
token of that span (`CutsOff.isNext`).
-/

namespace LineLexer

/-- A token of a line directly follows those of the spans that a scan has cut off. -/
def IsNext (scope : LinkScope) (line : Text) (base : Nat) (start : ResumeState) (spans : List Span)
    (token : Token) : Prop :=
  ∃ more, (tokenize scope line base start).tokens =
    placeFrom base (spans.flatMap (Span.split scope)) ++ token :: more

section

variable {scope : LinkScope} {line text : Text} {base : Nat} {start here next : ResumeState}
  {spans : List Span} {token : Token}

/-- There is one next token at most. -/
theorem IsNext.unique {other : Token} (h : IsNext scope line base start spans token)
    (hother : IsNext scope line base start spans other) : token = other := by
  obtain ⟨more, hmore⟩ := h
  obtain ⟨rest, hrest⟩ := hother
  rw [hmore] at hrest
  exact (List.cons.inj (List.append_cancel_left hrest)).1

/-- A span that is cut off first is the next token. -/
theorem CutsOff.isNext {span : Span} {cut : List Span}
    (h : CutsOff scope here text (span :: cut) next)
    (hreach : Reaches .start start line spans here text) (base : Nat) :
    IsNext scope line base start spans (span.place (base + byteLength (spelled spans))) := by
  obtain ⟨-, more, hmore, -⟩ := h start line spans base hreach
  rw [List.append_assoc] at hmore
  exact ⟨_, hmore⟩

/-- A span that a scan has cut off last and that is not searched for links is the token behind those
of the spans before it. -/
theorem Reaches.isNext {span : Span}
    (h : Reaches .start start line (spans ++ [span]) next text)
    (hscope : scope.appliesTo span.kind = false) (base : Nat) :
    IsNext scope line base start spans (span.place (base + byteLength (spelled spans))) := by
  obtain ⟨more, hmore⟩ := h.exists_spans_eq
  have hsplit : span.split scope = [span] := by simp [Span.split, hscope]
  simp only [IsNext, tokenize, hmore, List.flatMap_append, List.flatMap_singleton, placeFrom_append,
    hsplit, List.append_assoc, Span.spelled_flatMap_split]
  exact ⟨_, rfl⟩

/-- At the end of a line there is no next token. -/
theorem Reaches.ne_nil_of_isNext (h : Reaches .start start line spans here text)
    (hnext : IsNext scope line base start spans token) : text ≠ [] := by
  rintro rfl
  obtain ⟨more, hmore⟩ := hnext
  simp [tokenize, h.scan_eq] at hmore

/-- The next token is of the kind of a piece that the move there takes. -/
theorem Reaches.exists_piece_of_isNext {c : Char} {rest : Text}
    (h : Reaches .start start line spans here (c :: rest))
    (hwidth : 0 < (LineLexer.step (spans.foldl Recall.note .start) here c rest).width)
    (hnext : IsNext scope line base start spans token) :
    ∃ piece ∈ (LineLexer.step (spans.foldl Recall.note .start) here c rest).pieces,
      token.kind = piece.kind := by
  obtain ⟨more, hmore⟩ := hnext
  obtain ⟨span, cut, hcarve⟩ :=
    List.exists_cons_of_ne_nil (carve_ne_nil hwidth (List.cons_ne_nil c rest))
  obtain ⟨part, parts, hparts⟩ := List.exists_cons_of_ne_nil (span.split_ne_nil scope)
  -- The first part of the first span that the move cuts off is the next token.
  have htoken : part.place (base + byteLength (spelled spans)) = token := by
    simp only [tokenize, h.scan_eq, scan_cons, hcarve, List.flatMap_append, List.flatMap_cons,
      placeFrom_append, hparts, List.cons_append, placeFrom, Span.spelled_flatMap_split] at hmore
    exact (List.cons.inj (List.append_cancel_left hmore)).1
  have hpart : part ∈ span.split scope := by simp [hparts]
  have hspan : span ∈ carve (LineLexer.step (spans.foldl Recall.note .start) here c rest).pieces
      (c :: rest) := by
    simp [hcarve]
  obtain ⟨piece, hpiece, hkind, -⟩ := exists_piece_of_mem_carve hspan
  refine ⟨piece, hpiece, ?_⟩
  rw [← htoken, ← hkind]
  exact (Span.kind_of_mem_split hpart).1

end

end LineLexer
