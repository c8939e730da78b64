import LineLexer.Proofs.Link.Split
import LineLexer.Proofs.Text.Boundary
import LineLexer.Tokenize

/-!
# Tokens partition their line

The tokens of a line follow each other without a gap or an overlap, from the offset of the line to
its end, and each holds the slice of the line between its ends. `Partitions` is this property of a
list of tokens, and `tokenize_partitions` says that it holds for every line, offset, state and
scope. What carries it is that spans placed one after the other partition the text that they spell
(`partitions_placeFrom`); the spans of a scan spell the line, split or not.

At machine words the same holds with the sums and differences of words (`PartitionsWords`), wherever
the line starts (`tokenizeAt_partitions`). Where its end is a word too, nothing wraps around, and
the tokens are those of offsets that count up without an end (`tokenizeAt_eq_tokenize`).
-/

namespace LineLexer

/-- Tokens cover a line that starts at an offset: in order, without gaps, each with its own slice
of the line. -/
structure Partitions (line : Text) (base : Nat) (tokens : List Token) : Prop where
  /-- The first token starts where the line does. -/
  first : ∀ token ∈ tokens.head?, token.offset = base
  /-- Every other token starts where the one before it stops. -/
  contiguous : tokens.IsChain fun before after => after.offset = before.stop
  /-- The last token stops where the line does. -/
  last : ∀ token ∈ tokens.getLast?, token.stop = base + byteLength line
  /-- A token's text is the slice of the line between its ends. -/
  text : ∀ token ∈ tokens, base ≤ token.offset ∧
    slice? line (token.offset - base) (token.stop - base) = some token.text
  /-- Only an empty line has no token. -/
  nil_iff : tokens = [] ↔ line = []
  /-- A token without a text stands directly after a link. -/
  empty : ∀ before token after, tokens = before ++ token :: after → token.text = [] →
    ∃ link ∈ before.getLast?, link.isLink = true

/-! ## Placed spans -/

/-- No token is placed only if there is no span. -/
theorem placeFrom_eq_nil {offset : Nat} {spans : List Span} :
    placeFrom offset spans = [] ↔ spans = [] := by
  cases spans <;> simp [placeFrom]

/-- The first of placed spans is the first span at the offset. -/
theorem head?_placeFrom (offset : Nat) (spans : List Span) :
    (placeFrom offset spans).head? = spans.head?.map (·.place offset) := by
  cases spans <;> rfl

/-- The last of placed spans stops after all that the spans spell. -/
theorem stop_of_mem_getLast?_placeFrom {offset : Nat} {spans : List Span} {token : Token}
    (h : token ∈ (placeFrom offset spans).getLast?) :
    token.stop = offset + byteLength (spelled spans) := by
  induction spans generalizing offset with
  | nil => cases h
  | cons span spans ih =>
    cases spans with
    | nil =>
      obtain rfl : span.place offset = token := Option.some.inj h
      simp [spelled, Token.stop, Token.length, Span.place]
    | cons next spans =>
      have hlast :
          token ∈ (placeFrom (offset + byteLength span.text) (next :: spans)).getLast? := by
        rw [placeFrom, placeFrom, List.getLast?_cons_cons] at h
        exact h
      rw [ih hlast]
      simp [spelled, Nat.add_assoc]

/-- Spans after others are placed after what those spell. -/
theorem placeFrom_append (offset : Nat) (before after : List Span) :
    placeFrom offset (before ++ after) =
      placeFrom offset before ++ placeFrom (offset + byteLength (spelled before)) after := by
  induction before generalizing offset with
  | nil => rfl
  | cons span before ih =>
    rw [List.cons_append, placeFrom, ih, placeFrom, List.cons_append, Nat.add_assoc,
      ← byteLength_append]
    rfl

/-- Placed spans lie between their offset and the end of what they spell. -/
theorem bounds_of_mem_placeFrom {offset : Nat} {spans : List Span} {token : Token}
    (h : token ∈ placeFrom offset spans) :
    offset ≤ token.offset ∧ token.stop ≤ offset + byteLength (spelled spans) := by
  induction spans generalizing offset with
  | nil => cases h
  | cons span spans ih =>
    have hspelled : byteLength (spelled (span :: spans)) =
        byteLength span.text + byteLength (spelled spans) := byteLength_append ..
    rcases List.mem_cons.1 h with rfl | h
    · refine ⟨Nat.le_refl _, ?_⟩
      simp only [Span.place, Token.stop, Token.length]
      omega
    · have := ih h
      omega

/-- Placed spans follow each other without a gap. -/
theorem isChain_placeFrom (offset : Nat) (spans : List Span) :
    (placeFrom offset spans).IsChain fun before after => after.offset = before.stop := by
  induction spans generalizing offset with
  | nil => exact .nil
  | cons span spans ih =>
    cases spans with
    | nil => exact .singleton _
    | cons next spans => exact .cons_cons rfl (ih _)

/-- Each of spans placed after a head holds its slice of the head and what the spans spell. -/
theorem slice?_of_mem_placeFrom {base : Nat} (head : Text) {spans : List Span} {token : Token}
    (h : token ∈ placeFrom (base + byteLength head) spans) :
    base ≤ token.offset ∧
      slice? (head ++ spelled spans) (token.offset - base) (token.stop - base) =
        some token.text := by
  induction spans generalizing head with
  | nil => cases h
  | cons span spans ih =>
    have hline : head ++ spelled (span :: spans) = (head ++ span.text) ++ spelled spans :=
      (List.append_assoc ..).symm
    rw [hline]
    rcases List.mem_cons.1 h with rfl | h
    · refine ⟨Nat.le_add_right .., slice?_eq_some.2 ⟨head, spelled spans, rfl, ?_, ?_⟩⟩
      · simp only [Span.place]
        omega
      · simp only [Span.place, Token.stop, Token.length]
        omega
    · apply ih
      rwa [byteLength_append, ← Nat.add_assoc]

/-- Of placed spans, one without a text follows a link if so it is with the spans. -/
theorem isChain_link_placeFrom (offset : Nat) {spans : List Span}
    (h : spans.IsChain Span.MayFollow) :
    (placeFrom offset spans).IsChain fun before after =>
      after.text = [] → before.isLink = true := by
  induction spans generalizing offset with
  | nil => exact .nil
  | cons span spans ih =>
    cases spans with
    | nil => exact .singleton _
    | cons next spans =>
      obtain ⟨hmay, hrest⟩ := List.isChain_cons_cons.1 h
      exact .cons_cons hmay (ih _ hrest)

/-- Spans placed one after the other partition the text that they spell, if only after a link one
of them has no text. -/
theorem partitions_placeFrom (base : Nat) {spans : List Span}
    (hchain : spans.IsChain Span.MayFollow) (hhead : ∀ first ∈ spans.head?, first.text ≠ []) :
    Partitions (spelled spans) base (placeFrom base spans) where
  first token h := by
    rw [head?_placeFrom] at h
    obtain ⟨span, -, rfl⟩ := Option.map_eq_some_iff.1 h
    rfl
  contiguous := isChain_placeFrom base spans
  last token h := stop_of_mem_getLast?_placeFrom h
  text token h := slice?_of_mem_placeFrom [] h
  nil_iff := by
    rw [placeFrom_eq_nil]
    constructor
    · rintro rfl
      rfl
    · intro h
      cases spans with
      | nil => rfl
      | cons span spans => exact absurd (List.append_eq_nil_iff.1 h).1 (hhead span rfl)
  empty before token after h ht := by
    have hlink := isChain_link_placeFrom base hchain
    rw [h, List.isChain_append] at hlink
    cases hb : before.getLast? with
    | some link => exact ⟨link, rfl, hlink.2.2 link hb token rfl ht⟩
    | none =>
      -- With nothing before it, the token is the first, and that one has a text.
      obtain rfl := List.getLast?_eq_none_iff.1 hb
      have hfirst : (placeFrom base spans).head? = some token := by rw [h]; rfl
      rw [head?_placeFrom] at hfirst
      obtain ⟨span, hspan, rfl⟩ := Option.map_eq_some_iff.1 hfirst
      exact absurd ht (hhead span hspan)

/-! ## Tokens of a line -/

/-- Where no links are looked for, the tokens of a line are the spans of its scan. -/
theorem tokenize_off (line : Text) (offset : Nat) (state : ResumeState) :
    tokenize .off line offset state =
      ⟨placeFrom offset (scan .start state line).spans, (scan .start state line).finish⟩ := by
  have hsplit : Span.split .off = fun span => [span] := by
    funext span
    rw [Span.split, if_neg (by simp [LinkScope.appliesTo])]
  rw [tokenize, hsplit, List.flatMap_singleton']

/-- The spans of a scanned line spell it, split or not. -/
theorem spelled_split_scan (scope : LinkScope) (line : Text) (state : ResumeState) :
    spelled ((scan .start state line).spans.flatMap (Span.split scope)) = line := by
  rw [Span.spelled_flatMap_split, spelled_scan]

/-- Each token of a line holds the slice of the line between its ends. -/
theorem slice?_of_mem_tokenize {scope : LinkScope} {line : Text} {base : Nat} {state : ResumeState}
    {token : Token} (h : token ∈ (tokenize scope line base state).tokens) :
    base ≤ token.offset ∧
      slice? line (token.offset - base) (token.stop - base) = some token.text := by
  have hplaced : token ∈ placeFrom (base + byteLength [])
      ((scan .start state line).spans.flatMap (Span.split scope)) := h
  have hslice := slice?_of_mem_placeFrom [] hplaced
  rwa [List.nil_append, spelled_split_scan] at hslice

/-- The tokens of every line, at any offset, from any state and in any scope, partition it. -/
theorem tokenize_partitions (scope : LinkScope) (line : Text) (base : Nat) (state : ResumeState) :
    Partitions line base (tokenize scope line base state).tokens := by
  have hspans : ∀ span ∈ (scan .start state line).spans, span.text ≠ [] :=
    fun _ => text_ne_nil_of_mem_scan
  obtain ⟨hchain, hhead⟩ := Span.isChain_flatMap_split scope hspans
  have h := partitions_placeFrom base hchain hhead
  rwa [spelled_split_scan] at h

/-! ## Tokens at machine words -/

/-- Tokens at machine words cover a line that starts at one: in order, without gaps, each with its
own slice of the line. -/
structure PartitionsWords (line : Text) (base : UInt64) (tokens : List Token) : Prop where
  /-- Every offset is a machine word. -/
  offset_lt : ∀ token ∈ tokens, token.offset < UInt64.size
  /-- The first token starts where the line does. -/
  first : ∀ token ∈ tokens.head?, token.word = base
  /-- Every other token starts where the one before it stops. -/
  contiguous : tokens.IsChain fun before after => after.word = before.stopWord
  /-- The last token stops where the line does. -/
  last : ∀ token ∈ tokens.getLast?, token.stopWord = base + UInt64.ofNat (byteLength line)
  /-- A token's text is the slice of the line between its ends. -/
  text : ∀ token ∈ tokens,
    slice? line (token.word - base).toNat (token.stopWord - base).toNat = some token.text
  /-- Only an empty line has no token. -/
  nil_iff : tokens = [] ↔ line = []
  /-- A token without a text stands directly after a link. -/
  empty : ∀ before token after, tokens = before ++ token :: after → token.text = [] →
    ∃ link ∈ before.getLast?, link.isLink = true

/-- A token at the word of its offset has that word. -/
@[simp] theorem Token.word_wrap (token : Token) : token.wrap.word = token.word :=
  UInt64.ofNat_toNat

/-- A token at the word of its offset stops at the same word. -/
@[simp] theorem Token.stopWord_wrap (token : Token) : token.wrap.stopWord = token.stopWord := by
  rw [stopWord, word_wrap]
  rfl

/-- A token stops at the word of the offset that it stops at. -/
theorem Token.ofNat_stop (token : Token) : UInt64.ofNat token.stop = token.stopWord :=
  UInt64.ofNat_add ..

/-- A token whose offset is a word stays where it is. -/
theorem Token.wrap_of_lt {token : Token} (h : token.offset < UInt64.size) : token.wrap = token := by
  rw [wrap, word, UInt64.toNat_ofNat_of_lt' h]

/-- The difference of words is that of the numbers if it is a word. -/
theorem toNat_ofNat_sub {base : UInt64} {n : Nat} (hle : base.toNat ≤ n)
    (hlt : n - base.toNat < UInt64.size) : (UInt64.ofNat n - base).toNat = n - base.toNat := by
  have hbase := base.toNat_lt
  unfold UInt64.size at hlt
  rw [UInt64.toNat_sub, UInt64.toNat_ofNat']
  omega

/-- Tokens that partition a line whose length is a word do so at machine words. -/
theorem Partitions.map_wrap {line : Text} (hline : byteLength line < UInt64.size) {base : UInt64}
    {tokens : List Token} (h : Partitions line base.toNat tokens) :
    PartitionsWords line base (tokens.map Token.wrap) where
  offset_lt := by
    rw [List.forall_mem_map]
    exact fun token _ => token.word.toNat_lt
  first := by
    rw [List.head?_map]
    intro other hother
    obtain ⟨token, htoken, rfl⟩ := Option.map_eq_some_iff.1 hother
    rw [Token.word_wrap, Token.word, h.first token htoken, UInt64.ofNat_toNat]
  contiguous := by
    rw [List.isChain_map]
    refine h.contiguous.imp fun before after hnext => ?_
    rw [Token.word_wrap, Token.stopWord_wrap, ← Token.ofNat_stop, ← hnext, Token.word]
  last := by
    rw [List.getLast?_map]
    intro other hother
    obtain ⟨token, htoken, rfl⟩ := Option.map_eq_some_iff.1 hother
    rw [Token.stopWord_wrap, ← Token.ofNat_stop, h.last token htoken, UInt64.ofNat_add,
      UInt64.ofNat_toNat]
  text := by
    rw [List.forall_mem_map]
    intro token htoken
    obtain ⟨hbase, hslice⟩ := h.text token htoken
    -- Both ends are within the line, so their distances from its start are words.
    obtain ⟨head, rest, hsplit, hstart, hstop⟩ := slice?_eq_some.1 hslice
    have hlength := congrArg byteLength hsplit
    simp only [byteLength_append] at hlength
    have hend : base.toNat ≤ token.stop := hbase.trans (Nat.le_add_right ..)
    rw [Token.word_wrap, Token.stopWord_wrap, ← Token.ofNat_stop, Token.word,
      toNat_ofNat_sub hbase (by omega), toNat_ofNat_sub hend (by omega)]
    exact hslice
  nil_iff := by rw [List.map_eq_nil_iff, h.nil_iff]
  empty before token after hsplit ht := by
    obtain ⟨first, more, rfl, rfl, hmore⟩ := List.map_eq_append_iff.1 hsplit
    obtain ⟨other, rest, rfl, rfl, -⟩ := List.map_eq_cons_iff.1 hmore
    obtain ⟨link, hlink, hflag⟩ := h.empty first other rest rfl ht
    exact ⟨link.wrap, by rw [List.getLast?_map, Option.mem_def.1 hlink]; rfl, hflag⟩

/-- Where the end of a line is a word, no offset of a token wraps around. -/
theorem tokenizeAt_eq_tokenize (scope : LinkScope) {line : Text} {base : UInt64}
    (hend : base.toNat + byteLength line < UInt64.size) (state : ResumeState) :
    tokenizeAt scope line base state = tokenize scope line base.toNat state := by
  have htokens : (tokenize scope line base.toNat state).tokens.map Token.wrap =
      (tokenize scope line base.toNat state).tokens := by
    -- Every token stops by the end of the line, so its offset is a word as well.
    refine (List.map_congr_left fun token htoken => ?_).trans (List.map_id _)
    have hbounds := (bounds_of_mem_placeFrom htoken).2
    rw [spelled_split_scan, Token.stop] at hbounds
    exact Token.wrap_of_lt (by omega)
  rw [tokenizeAt, Lexed.wrap, htokens]

/-- The tokens of every line, at any machine word, from any state and in any scope, partition it,
with the sums and differences of words. Where the end of the line is a word, they do so with those
of numbers. -/
theorem tokenizeAt_partitions (scope : LinkScope) {line : Text}
    (hline : byteLength line < UInt64.size) (base : UInt64) (state : ResumeState) :
    let tokens := (tokenizeAt scope line base state).tokens
    PartitionsWords line base tokens ∧
      (base.toNat + byteLength line < UInt64.size → Partitions line base.toNat tokens) := by
  refine ⟨(tokenize_partitions scope line base.toNat state).map_wrap hline, fun hend => ?_⟩
  rw [tokenizeAt_eq_tokenize scope hend]
  exact tokenize_partitions scope line base.toNat state

/-- At the last word, a line goes on at zero, and at seven nothing wraps around. -/
theorem tokenizeAt_partitions_at_last_word :
    let tokens base := (tokenizeAt .comments "a b".toList base (.script .code)).tokens
    byteLength "a b".toList < UInt64.size ∧
      (tokens 0xffffffffffffffff).map Token.offset = [UInt64.size - 1, 0, 1] ∧
      PartitionsWords "a b".toList 0xffffffffffffffff (tokens 0xffffffffffffffff) ∧
      (7 : UInt64).toNat + byteLength "a b".toList < UInt64.size ∧
      Partitions "a b".toList 7 (tokens 7) := by
  intro tokens
  have hline : byteLength "a b".toList < UInt64.size := by decide
  have hoffsets : (tokens 0xffffffffffffffff).map Token.offset = [UInt64.size - 1, 0, 1] := by
    decide +kernel
  have hend : (7 : UInt64).toNat + byteLength "a b".toList < UInt64.size := by decide
  exact ⟨hline, hoffsets, (tokenizeAt_partitions .comments hline _ (.script .code)).1, hend,
    (tokenizeAt_partitions .comments hline 7 (.script .code)).2 hend⟩

end LineLexer
