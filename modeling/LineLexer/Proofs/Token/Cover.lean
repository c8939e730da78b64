import LineLexer.Proofs.Document
import LineLexer.Proofs.Partition

/-!
# The token at a position

A token covers the positions from its offset up to where it stops. The tokens of a line come from
the spans of its scan, each at the place of what the spans before it spell (`exists_span_of_mem`).
So a position of the line that a token covers lies within the span of that token
(`exists_span_of_covers`), and every position within what spans spell is covered
(`exists_covers`).
-/

namespace LineLexer

/-- A position that is within a token. -/
def Token.Covers (token : Token) (pos : Nat) : Prop :=
  token.offset ≤ pos ∧ pos < token.stop

instance (token : Token) (pos : Nat) : Decidable (token.Covers pos) :=
  inferInstanceAs (Decidable (_ ∧ _))

/-- What holds of all tokens of a line, their places aside, holds of all spans of its scan. -/
theorem forall_scan_of_tokenize {p : Span → Prop} {line : Text} {base : Nat} {state : ResumeState}
    (h : ∀ token ∈ (tokenize .off line base state).tokens, p token.span) :
    ∀ span ∈ (scan .start state line).spans, p span := by
  intro span hspan
  rw [tokenize_off] at h
  rw [← map_span_placeFrom base (scan .start state line).spans] at hspan
  obtain ⟨token, htoken, rfl⟩ := List.mem_map.1 hspan
  exact h token htoken

/-- A text falls into two parts in one way, given the bytes of the first. -/
theorem append_inj_of_byteLength {first second other rest : Text}
    (h : first ++ second = other ++ rest) (hlen : byteLength first = byteLength other) :
    first = other ∧ second = rest := by
  have htake := takeBytes?_append first second
  rw [h, hlen, takeBytes?_append] at htake
  obtain rfl := Option.some.inj htake
  exact ⟨rfl, List.append_cancel_left h⟩

/-- A text that falls into two parts and into three, the first of the two no shorter than the first
of the three but shorter than the first two: their border is within the middle part. -/
theorem border_within {before rest front middle back : Text}
    (h : before ++ rest = front ++ (middle ++ back)) (hle : byteLength front ≤ byteLength before)
    (hlt : byteLength before < byteLength front + byteLength middle) :
    ∃ inner outer, before = front ++ inner ∧ middle = inner ++ outer ∧ outer ≠ [] ∧
      rest = outer ++ back := by
  obtain ⟨inner, hbefore, hmiddle⟩ : ∃ inner, before = front ++ inner ∧
      middle ++ back = inner ++ rest := by
    rcases List.append_eq_append_iff.1 h with ⟨inner, hfront, hrest⟩ | ⟨inner, hbefore, hrest⟩
    · -- The first of the three is not longer, so nothing is between.
      rw [hfront, byteLength_append] at hle
      obtain rfl := byteLength_eq_zero.1 (show byteLength inner = 0 by omega)
      exact ⟨[], by simpa using hfront.symm, by simpa using hrest.symm⟩
    · exact ⟨inner, hbefore, hrest⟩
  rw [hbefore, byteLength_append] at hlt
  rcases List.append_eq_append_iff.1 hmiddle with ⟨outer, hinner, -⟩ | ⟨outer, hm, hrest⟩
  · rw [hinner, byteLength_append] at hlt
    omega
  · refine ⟨inner, outer, hbefore, hm, ?_, hrest⟩
    rintro rfl
    rw [hm, List.append_nil] at hlt
    omega

section

variable {scope : LinkScope} {offset pos : Nat} {spans : List Span} {token : Token}

/-- A token of spans is a part of one of them, at the place of what the spans before it spell. -/
theorem exists_span_of_mem (h : token ∈ placeFrom offset (spans.flatMap (Span.split scope))) :
    ∃ front span back, spans = front ++ span :: back ∧
      token ∈ placeFrom (offset + byteLength (spelled front)) (span.split scope) := by
  induction spans generalizing offset with
  | nil => cases h
  | cons span spans ih =>
    rw [List.flatMap_cons, placeFrom_append, Span.spelled_split] at h
    rcases List.mem_append.1 h with h | h
    · exact ⟨[], span, spans, rfl, h⟩
    · obtain ⟨front, other, back, rfl, hmem⟩ := ih h
      refine ⟨span :: front, other, back, rfl, ?_⟩
      rwa [spelled, List.flatMap_cons, byteLength_append, ← Nat.add_assoc]

/-- A token of a split span is a part of the split. -/
theorem span_mem_split {span : Span} (h : token ∈ placeFrom offset (span.split scope)) :
    token.span ∈ span.split scope := by
  rw [← map_span_placeFrom offset (span.split scope)]
  exact List.mem_map_of_mem h

/-- A token has the kind and the language of the span that it is a part of. -/
theorem kind_of_mem_placeFrom_split {span : Span}
    (h : token ∈ placeFrom offset (span.split scope)) :
    token.kind = span.kind ∧ token.language = span.language :=
  Span.kind_of_mem_split (span_mem_split h)

/-- A span that is not searched for links is one token. -/
theorem eq_place_of_mem_placeFrom_split {span : Span} (hk : scope.appliesTo span.kind = false)
    (h : token ∈ placeFrom offset (span.split scope)) : token = span.place offset := by
  rw [Span.split, if_neg (by simp [hk])] at h
  exact List.mem_singleton.1 h

/-- A position that a token of spans covers lies within the span of the token. -/
theorem exists_span_of_covers {before rest : Text}
    (h : token ∈ placeFrom offset (spans.flatMap (Span.split scope)))
    (hcovers : token.Covers (offset + byteLength before))
    (hspans : spelled spans = before ++ rest) :
    ∃ front span back inner outer, spans = front ++ span :: back ∧
      token ∈ placeFrom (offset + byteLength (spelled front)) (span.split scope) ∧
      before = spelled front ++ inner ∧ span.text = inner ++ outer ∧ outer ≠ [] ∧
      rest = outer ++ spelled back := by
  obtain ⟨front, span, back, rfl, hmem⟩ := exists_span_of_mem h
  have hbounds := bounds_of_mem_placeFrom hmem
  rw [Span.spelled_split] at hbounds
  obtain ⟨hle, hlt⟩ := hcovers
  have hparts : before ++ rest = spelled front ++ (span.text ++ spelled back) := by
    rw [← hspans, spelled, List.flatMap_append, List.flatMap_cons]
    rfl
  obtain ⟨inner, outer, hbefore, htext, hne, hrest⟩ :=
    border_within hparts (by omega) (by omega)
  exact ⟨front, span, back, inner, outer, rfl, hmem, hbefore, htext, hne, hrest⟩

/-- Every position within what placed spans spell is covered. -/
theorem exists_covers (spans : List Span) (hle : offset ≤ pos)
    (hlt : pos < offset + byteLength (spelled spans)) :
    ∃ token ∈ placeFrom offset spans, token.Covers pos := by
  induction spans generalizing offset with
  | nil => exact absurd hlt (by simpa [spelled] using hle)
  | cons span spans ih =>
    by_cases hpos : pos < offset + byteLength span.text
    · exact ⟨span.place offset, List.mem_cons_self, hle, hpos⟩
    · have hspelled : byteLength (spelled (span :: spans)) =
          byteLength span.text + byteLength (spelled spans) := byteLength_append ..
      have hpos : offset + byteLength span.text ≤ pos := Nat.le_of_not_lt hpos
      obtain ⟨token, hmem, hcovers⟩ := ih hpos (by omega)
      exact ⟨token, List.mem_cons_of_mem _ hmem, hcovers⟩

/-- The first position of a span that is not empty is covered by its token. -/
theorem exists_place_covers (front : List Span) (span : Span) (back : List Span)
    (h : span.text ≠ []) (offset : Nat) :
    span.place (offset + byteLength (spelled front)) ∈ placeFrom offset (front ++ span :: back) ∧
      (span.place (offset + byteLength (spelled front))).Covers
        (offset + byteLength (spelled front)) := by
  refine ⟨?_, Nat.le_refl _, ?_⟩
  · rw [placeFrom_append]
    exact List.mem_append_right _ List.mem_cons_self
  · have : byteLength span.text ≠ 0 := fun h0 => h (byteLength_eq_zero.1 h0)
    simp only [Span.place, Token.stop, Token.length]
    omega

/-- The token of a span that is not empty stops behind its offset. -/
theorem lt_stop_of_mem_placeFrom (h : token ∈ placeFrom offset spans)
    (hspans : ∀ span ∈ spans, span.text ≠ []) : token.offset < token.stop := by
  have hspan : token.span ∈ spans := by
    rw [← map_span_placeFrom offset spans]
    exact List.mem_map_of_mem h
  have hpos : byteLength token.text ≠ 0 :=
    fun h0 => hspans token.span hspan (byteLength_eq_zero.1 h0)
  simp only [Token.stop, Token.length]
  omega

/-- No position is covered by two placed spans. -/
theorem eq_of_covers {other : Token} (h : token ∈ placeFrom offset spans)
    (hother : other ∈ placeFrom offset spans) (hcovers : token.Covers pos)
    (hcoversOther : other.Covers pos) : token = other := by
  induction spans generalizing offset with
  | nil => cases h
  | cons span spans ih =>
    have hstop : ∀ {later : Token}, later ∈ placeFrom (offset + byteLength span.text) spans →
        (span.place offset).stop ≤ later.offset := fun h => (bounds_of_mem_placeFrom h).1
    rcases List.mem_cons.1 h with rfl | h <;> rcases List.mem_cons.1 hother with rfl | hother
    · rfl
    · have := hstop hother
      have := hcovers.2
      have := hcoversOther.1
      omega
    · have := hstop h
      have := hcovers.1
      have := hcoversOther.2
      omega
    · exact ih h hother

end

end LineLexer
