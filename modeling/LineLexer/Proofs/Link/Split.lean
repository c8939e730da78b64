import LineLexer.Token
import Mathlib.Data.List.Chain

/-!
# Splitting a span around its link

A link lies within its text and is not empty (`Link.find?_bounds`). So a split falls into at most
three parts that spell the span again (`Span.spelled_split`), of one kind and language
(`Span.kind_of_mem_split`), and only the part after a link can come out empty
(`Span.isChain_split`).
-/

namespace LineLexer

namespace Link

/-- The width of a link is positive and at most that of the text. -/
theorem width?_bounds {text : Text} {width : Nat} (h : width? text = some width) :
    0 < width ∧ width ≤ text.length := by
  unfold width? at h
  split at h
  · cases h
  next mark _ =>
    simp only at h
    split at h
    next hlt =>
      cases h
      refine ⟨Nat.zero_lt_of_lt hlt, ?_⟩
      calc trimmedWidth (text.takeWhile isLinkChar)
          ≤ (text.takeWhile isLinkChar).reverse.length := (List.dropWhile_sublist _).length_le
        _ ≤ text.length := by
          rw [List.length_reverse]
          exact (List.takeWhile_sublist _).length_le
    next => cases h

/-- A link that is found is not empty and lies within the text. -/
theorem findFrom?_bounds {free : Bool} {text : Text} {start width : Nat}
    (h : findFrom? free text = some (start, width)) : 0 < width ∧ start + width ≤ text.length := by
  induction text generalizing free start with
  | nil => cases h
  | cons c rest ih =>
    unfold findFrom? at h
    split at h
    next hw =>
      cases h
      split at hw
      · have := width?_bounds hw
        omega
      · cases hw
    next =>
      obtain ⟨found, hf, he⟩ := Option.map_eq_some_iff.1 h
      obtain ⟨rfl, rfl⟩ := Prod.mk.inj he
      obtain ⟨hpos, hle⟩ := ih hf
      refine ⟨hpos, ?_⟩
      rw [List.length_cons]
      omega

/-- The first link is not empty and lies within the text. -/
theorem find?_bounds {text : Text} {start width : Nat} (h : find? text = some (start, width)) :
    0 < width ∧ start + width ≤ text.length :=
  findFrom?_bounds h

end Link

/-! ## Flags -/

/-- Setting the bit of a link makes a link. -/
theorem Flags.isLink_set (flags : Flags) : (flags.set linkBit).isLink = true := by
  obtain ⟨bits⟩ := flags
  have h : (bits ||| 1) &&& 1 = 1 := by
    apply UInt8.toBitVec_inj.1
    simp only [UInt8.toBitVec_and, UInt8.toBitVec_or]
    ext i hi
    simp only [BitVec.getElem_and, BitVec.getElem_or]
    cases bits.toBitVec[i] <;> simp
  simp [isLink, contains, set, linkBit, h]

/-! ## Parts of a span -/

namespace Span

/-- What a split makes of a span: the span itself, or the parts around its link. -/
theorem split_cases (scope : LinkScope) (span : Span) :
    span.split scope = [span] ∨
      ∃ start width, scope.appliesTo span.kind = true ∧ Link.find? span.text = some (start, width) ∧
        span.split scope = (if start = 0 then [] else [span.part 0 start span.flags])
          ++ [span.part start width (span.flags.set Flags.linkBit),
            span.part (start + width) span.text.length span.flags] := by
  unfold split
  split
  next happ =>
    split
    next => exact .inl rfl
    next start width hf => exact .inr ⟨start, width, happ, hf, rfl⟩
  next => exact .inl rfl

/-- A split has at least one part. -/
theorem split_ne_nil (scope : LinkScope) (span : Span) : span.split scope ≠ [] := by
  rcases split_cases scope span with h | ⟨start, width, -, -, h⟩ <;> simp [h]

/-- The parts of a split spell the text of the span. -/
theorem spelled_split (scope : LinkScope) (span : Span) :
    spelled (span.split scope) = span.text := by
  rcases split_cases scope span with h | ⟨start, width, -, hf, h⟩
  · simp [h, spelled]
  · obtain ⟨-, hle⟩ := Link.find?_bounds hf
    have hlead : spelled (if start = 0 then [] else [span.part 0 start span.flags]) =
        span.text.take start := by
      split
      next h0 => simp [h0, spelled]
      next => simp [spelled, part]
    have hparts : spelled [span.part start width (span.flags.set Flags.linkBit),
        span.part (start + width) span.text.length span.flags] = span.text.drop start := by
      have htail : (span.text.drop (start + width)).take span.text.length =
          (span.text.drop start).drop width := by
        rw [List.drop_drop, List.take_of_length_le (by rw [List.length_drop]; omega)]
      simp only [spelled, part, List.flatMap_cons, List.flatMap_nil, List.append_nil, htail]
      exact List.take_append_drop ..
    rw [h, spelled, List.flatMap_append]
    exact (congrArg₂ (· ++ ·) hlead hparts).trans (List.take_append_drop ..)

/-- The parts of spans spell what the spans spell. -/
theorem spelled_flatMap_split (scope : LinkScope) (spans : List Span) :
    spelled (spans.flatMap (split scope)) = spelled spans := by
  induction spans with
  | nil => rfl
  | cons span spans ih =>
    have happend : spelled ((span :: spans).flatMap (split scope)) =
        spelled (span.split scope) ++ spelled (spans.flatMap (split scope)) := by
      simp [spelled]
    rw [happend, spelled_split, ih]
    rfl

/-- A span that may stand after another: it has a text, or the span before it is a link. -/
def MayFollow (before after : Span) : Prop :=
  after.text = [] → before.flags.isLink = true

/-- A split starts with a part that has a text, and only after a link a part has none. -/
theorem isChain_split (scope : LinkScope) {span : Span} (hs : span.text ≠ []) :
    (span.split scope).IsChain MayFollow ∧ ∀ first ∈ (span.split scope).head?, first.text ≠ [] := by
  rcases split_cases scope span with h | ⟨start, width, -, hf, h⟩
  · rw [h]
    simpa using hs
  · obtain ⟨hpos, hle⟩ := Link.find?_bounds hf
    have hlink : (span.part start width (span.flags.set Flags.linkBit)).text ≠ [] := by
      rw [← List.length_pos_iff]
      simp only [part, List.length_take, List.length_drop]
      omega
    have htail : MayFollow (span.part start width (span.flags.set Flags.linkBit))
        (span.part (start + width) span.text.length span.flags) :=
      fun _ => Flags.isLink_set _
    rw [h]
    split
    next => simpa using ⟨htail, hlink⟩
    next h0 =>
      have hlead : (span.part 0 start span.flags).text ≠ [] := by
        rw [← List.length_pos_iff]
        simp only [part, List.length_take, List.length_drop]
        omega
      simpa using ⟨⟨fun h0 => absurd h0 hlink, htail⟩, hlead⟩

/-- In the parts of spans that have texts, only after a link a part has none. -/
theorem isChain_flatMap_split (scope : LinkScope) {spans : List Span}
    (hs : ∀ span ∈ spans, span.text ≠ []) :
    (spans.flatMap (split scope)).IsChain MayFollow ∧
      ∀ first ∈ (spans.flatMap (split scope)).head?, first.text ≠ [] := by
  induction spans with
  | nil => simp
  | cons span spans ih =>
    obtain ⟨hchain, hhead⟩ := isChain_split scope (hs span List.mem_cons_self)
    obtain ⟨ihc, ihh⟩ := ih fun s h => hs s (List.mem_cons_of_mem _ h)
    rw [List.flatMap_cons]
    constructor
    · rw [List.isChain_append]
      -- The parts of the next span start with one that has a text, so they may follow anything.
      exact ⟨hchain, ihc, fun _ _ first hf h0 => absurd h0 (ihh first hf)⟩
    · intro first hf
      rw [List.head?_append] at hf
      cases hh : (span.split scope).head? with
      | none =>
        rw [hh] at hf
        exact ihh first hf
      | some other =>
        rw [hh] at hf
        obtain rfl : other = first := Option.some.inj hf
        exact hhead other hh

/-! ## Parts to paint -/

/-- The parts of a split that have a text. -/
def painted (scope : LinkScope) (span : Span) : List Span :=
  (span.split scope).filter fun part => !part.text.isEmpty

/-- A part of a split has the kind and the language of the span. -/
theorem kind_of_mem_split {scope : LinkScope} {span part : Span} (h : part ∈ span.split scope) :
    part.kind = span.kind ∧ part.language = span.language := by
  rcases split_cases scope span with hs | ⟨start, width, -, -, hs⟩
  · rw [hs, List.mem_singleton] at h
    rw [h]
    exact ⟨rfl, rfl⟩
  · rw [hs] at h
    split at h
    all_goals
      simp only [List.nil_append, List.cons_append, List.mem_cons, List.not_mem_nil,
        or_false] at h
      rcases h with rfl | rfl | rfl <;> exact ⟨rfl, rfl⟩

/-- A part to paint has the kind and the language of the span. -/
theorem kind_of_mem_painted {scope : LinkScope} {span part : Span}
    (h : part ∈ span.painted scope) : part.kind = span.kind ∧ part.language = span.language :=
  kind_of_mem_split (List.mem_filter.1 h).1

/-- A span of a kind that is not searched for links is one part. -/
theorem painted_eq_singleton {scope : LinkScope} {span : Span}
    (hk : scope.appliesTo span.kind = false) (ht : span.text ≠ []) :
    span.painted scope = [span] := by
  simp [painted, split, hk, ht]

end Span

/-- Neither the delimiters nor the names of tags are searched for links. -/
@[simp] theorem LinkScope.appliesTo_tag (scope : LinkScope) :
    scope.appliesTo .markupTagDelimiter = false ∧ scope.appliesTo .markupTagName = false := by
  cases scope <;> decide

end LineLexer
