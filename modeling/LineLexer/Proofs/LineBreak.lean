import LineLexer.Proofs.Token.Cover

/-!
# Lines joined by a line break

Two lines can be lexed one after the other, or as one text with a line break between them. Both ways
agree on a stretch of bytes if they classify each of its bytes alike and start tokens at the same
places strictly within (`AgreeOn`). They agree on both lines if their spans are `Spliced`: all spans
are the same but for the one that holds the break, which takes what it can of either line.
-/

namespace LineLexer

/-- The classification of a token apart from its text and place. -/
def Token.label (token : Token) : Kind × Language × Flags :=
  (token.kind, token.language, token.flags)

/-- Tokens and other tokens agree on the bytes from one position up to another: each byte is covered
in both by tokens of one label, and strictly within tokens start at the same positions. -/
structure AgreeOn (low high : Nat) (tokens others : List Token) : Prop where
  covers : ∀ pos, low ≤ pos → pos < high → ∃ token ∈ tokens, ∃ other ∈ others,
    token.Covers pos ∧ other.Covers pos ∧ token.label = other.label
  starts : ∀ pos, low < pos → pos < high →
    ((∃ token ∈ tokens, token.offset = pos) ↔ ∃ other ∈ others, other.offset = pos)

/-- What is lexed of two lines as one text with a line break between them agrees with what is lexed
of the lines one after the other. -/
structure Lexed.IsJoin (joined first second : Lexed) (base : Nat) (line next : Text) : Prop where
  finish : joined.finish = second.finish
  first : AgreeOn base (base + byteLength line) joined.tokens first.tokens
  second : AgreeOn (base + byteLength line + 1) (base + byteLength line + 1 + byteLength next)
    joined.tokens second.tokens

/-- A span with another text, if that is not empty. -/
def Span.sub (span : Span) (text : Text) : List Span :=
  if text.isEmpty then [] else [{ span with text := text }]

/-- Spans of two lines, and of both joined by a line break: one span holds the break with what it
takes of either line, and all others are the same. -/
def Spliced (first second joined : List Span) : Prop :=
  ∃ (front : List Span) (mid : Span) (head tail : Text) (back : List Span),
    first = front ++ mid.sub head ∧ second = mid.sub tail ++ back ∧
      joined = front ++ { mid with text := head ++ '\n' :: tail } :: back

/-- A part of a span spells its text. -/
@[simp] theorem spelled_sub (span : Span) (text : Text) : spelled (span.sub text) = text := by
  unfold Span.sub
  split
  next h => rw [List.isEmpty_iff.1 h, spelled_nil]
  next => simp

/-- A part of a span is placed as a token with its text, if that is not empty. -/
theorem mem_placeFrom_sub {span : Span} {text : Text} {offset : Nat} {token : Token} :
    token ∈ placeFrom offset (span.sub text) ↔
      text ≠ [] ∧ token = { span with text := text }.place offset := by
  unfold Span.sub
  split
  next h => simp [placeFrom, List.isEmpty_iff.1 h]
  next h => simp [placeFrom, show text ≠ [] by simpa using h]

/-- Placed spans after others are those of both. -/
theorem mem_placeFrom_append {offset : Nat} {spans more : List Span} {token : Token} :
    token ∈ placeFrom offset (spans ++ more) ↔
      token ∈ placeFrom offset spans ∨
        token ∈ placeFrom (offset + byteLength (spelled spans)) more := by
  rw [placeFrom_append, List.mem_append]

namespace Spliced

variable {first second joined : List Span}

/-- Spans before both lines and before the joined ones keep them spliced. -/
theorem append (h : Spliced first second joined) (spans : List Span) :
    Spliced (spans ++ first) second (spans ++ joined) := by
  obtain ⟨front, mid, head, tail, back, rfl, rfl, rfl⟩ := h
  exact ⟨spans ++ front, mid, head, tail, back, by simp, rfl, by simp⟩

/-- Joined lines agree with the first one on its bytes. -/
theorem agreeOn_first (h : Spliced first second joined) (base : Nat) :
    AgreeOn base (base + byteLength (spelled first)) (placeFrom base joined)
      (placeFrom base first) := by
  obtain ⟨front, mid, head, tail, back, rfl, rfl, rfl⟩ := h
  have hlength : byteLength (spelled (front ++ mid.sub head)) =
      byteLength (spelled front) + byteLength head := by simp
  rw [hlength]
  constructor
  · intro pos hlow hhigh
    by_cases hpos : pos < base + byteLength (spelled front)
    · obtain ⟨token, hmem, hcovers⟩ := exists_covers front hlow hpos
      exact ⟨token, mem_placeFrom_append.2 (.inl hmem), token, mem_placeFrom_append.2 (.inl hmem),
        hcovers, hcovers, rfl⟩
    · -- The span that holds the break starts with what it takes of the first line.
      have hhead : head ≠ [] := by
        rintro rfl
        rw [byteLength_nil] at hhigh
        omega
      refine ⟨_, mem_placeFrom_append.2 (.inr List.mem_cons_self), _,
        mem_placeFrom_append.2 (.inr (mem_placeFrom_sub.2 ⟨hhead, rfl⟩)), ⟨?_, ?_⟩, ⟨?_, ?_⟩, rfl⟩
      all_goals
        simp only [Span.place, Token.stop, Token.length, byteLength_append]
        omega
  · intro pos hlow hhigh
    constructor
    · rintro ⟨token, hmem, rfl⟩
      rcases mem_placeFrom_append.1 hmem with hmem | hmem
      · exact ⟨token, mem_placeFrom_append.2 (.inl hmem), rfl⟩
      rcases List.mem_cons.1 hmem with rfl | hmem
      · have hhead : head ≠ [] := by
          rintro rfl
          simp [Span.place] at hhigh
        exact ⟨_, mem_placeFrom_append.2 (.inr (mem_placeFrom_sub.2 ⟨hhead, rfl⟩)), rfl⟩
      · have := (bounds_of_mem_placeFrom hmem).1
        simp only [byteLength_append] at this
        omega
    · rintro ⟨token, hmem, rfl⟩
      rcases mem_placeFrom_append.1 hmem with hmem | hmem
      · exact ⟨token, mem_placeFrom_append.2 (.inl hmem), rfl⟩
      · obtain ⟨-, rfl⟩ := mem_placeFrom_sub.1 hmem
        exact ⟨_, mem_placeFrom_append.2 (.inr List.mem_cons_self), rfl⟩

/-- Joined lines agree with the second one on its bytes. -/
theorem agreeOn_second (h : Spliced first second joined) (base : Nat) :
    AgreeOn (base + byteLength (spelled first) + 1)
      (base + byteLength (spelled first) + 1 + byteLength (spelled second))
      (placeFrom base joined) (placeFrom (base + byteLength (spelled first) + 1) second) := by
  obtain ⟨front, mid, head, tail, back, rfl, rfl, rfl⟩ := h
  have hfirst : byteLength (spelled (front ++ mid.sub head)) =
      byteLength (spelled front) + byteLength head := by simp
  have hsecond : byteLength (spelled (mid.sub tail ++ back)) =
      byteLength tail + byteLength (spelled back) := by simp
  rw [hfirst, hsecond]
  generalize hmid : ({ mid with text := head ++ '\n' :: tail } : Span) = whole
  have hwhole : byteLength whole.text = byteLength head + 1 + byteLength tail := by
    rw [← hmid, byteLength_append, byteLength_cons, ← Nat.add_assoc]
    rfl
  -- What follows the span with the break has the same place in both.
  have hback : ∀ token,
      token ∈ placeFrom (base + (byteLength (spelled front) + byteLength head) + 1)
        (mid.sub tail ++ back) ↔
      (tail ≠ [] ∧ token = { mid with text := tail }.place
        (base + (byteLength (spelled front) + byteLength head) + 1)) ∨
      token ∈ placeFrom (base + byteLength (spelled front) + byteLength whole.text) back := by
    intro token
    rw [mem_placeFrom_append, mem_placeFrom_sub, spelled_sub]
    rw [show base + (byteLength (spelled front) + byteLength head) + 1 + byteLength tail =
      base + byteLength (spelled front) + byteLength whole.text by omega]
  have hjoined : ∀ token, token ∈ placeFrom base (front ++ whole :: back) ↔
      token ∈ placeFrom base front ∨ token = whole.place (base + byteLength (spelled front)) ∨
      token ∈ placeFrom (base + byteLength (spelled front) + byteLength whole.text) back := by
    intro token
    rw [mem_placeFrom_append, placeFrom, List.mem_cons]
  constructor
  · intro pos hlow hhigh
    by_cases hpos : pos < base + byteLength (spelled front) + byteLength whole.text
    · have htail : tail ≠ [] := by
        rintro rfl
        rw [byteLength_nil] at hwhole
        omega
      refine ⟨_, (hjoined _).2 (.inr (.inl rfl)), _, (hback _).2 (.inl ⟨htail, rfl⟩), ⟨?_, ?_⟩,
        ⟨?_, ?_⟩, by rw [← hmid]; rfl⟩
      all_goals
        simp only [Span.place, Token.stop, Token.length]
        omega
    · obtain ⟨token, hmem, hcovers⟩ := exists_covers back (Nat.le_of_not_lt hpos) (by omega)
      exact ⟨token, (hjoined token).2 (.inr (.inr hmem)), token, (hback token).2 (.inr hmem),
        hcovers, hcovers, rfl⟩
  · intro pos hlow hhigh
    constructor
    · rintro ⟨token, hmem, rfl⟩
      rcases (hjoined token).1 hmem with hmem | rfl | hmem
      · have := (bounds_of_mem_placeFrom hmem).2
        simp only [Token.stop] at this
        omega
      · simp only [Span.place] at hlow
        omega
      · exact ⟨token, (hback token).2 (.inr hmem), rfl⟩
    · rintro ⟨token, hmem, rfl⟩
      rcases (hback token).1 hmem with ⟨-, rfl⟩ | hmem
      · simp only [Span.place] at hlow
        omega
      · exact ⟨token, (hjoined token).2 (.inr (.inr hmem)), rfl⟩

/-- Joined lines whose spans are spliced agree with both lines. -/
theorem isJoin {joined first second : Scanned}
    (h : Spliced first.spans second.spans joined.spans) (hfinish : joined.finish = second.finish)
    (base : Nat) :
    Lexed.IsJoin ⟨placeFrom base joined.spans, joined.finish⟩
      ⟨placeFrom base first.spans, first.finish⟩
      ⟨placeFrom (base + byteLength (spelled first.spans) + 1) second.spans, second.finish⟩
      base (spelled first.spans) (spelled second.spans) :=
  ⟨hfinish, h.agreeOn_first base, h.agreeOn_second base⟩

end Spliced

end LineLexer
