import LineLexer.Proofs.Bytewise

/-!
# Links and offsets as decoration

A reader splits its tokens around links while it reads, at the offset of its line, and looks back at
the tokens that it has split. Still the scope and the offset only decorate what it reads: the tokens
without links at offset zero come out again, each as it is or in parts around a link, and all moved
by the offset (`Decorates`), and the state at the end of the line is the same. The parts of a span
are placed where its token is (`placeFrom_split`), so the spans of a scan, placed plain and placed
split, are related token by token (`decorates_placeFrom`). Offsets are machine words, and to move a
token is to add them as such (`Token.moveBy`).
-/

namespace LineLexer

namespace Token

/-- A token a machine word of bytes further on. -/
def moveBy (base : UInt64) (token : Token) : Token :=
  { token with offset := (base + token.word).toNat }

/-- The part of a token with a text, a number of bytes into the token, and flags of its own. -/
def part (token : Token) (start : Nat) (text : Text) (flags : Flags) : Token :=
  { token with offset := token.offset + start, text := text, flags := flags }

/-- The parts of a token around a link: the text before it, if there is any, the link, which is
flagged as one, and the text after it, even if there is none. -/
def around (token : Token) (before link after : Text) : List Token :=
  (if before = [] then [] else [token.part 0 before token.flags]) ++
    [token.part (byteLength before) link (token.flags.set Flags.linkBit),
      token.part (byteLength before + byteLength link) after token.flags]

end Token

/-- Tokens that decorate plain ones: each plain token as it is or, if its kind is in scope, in parts
around a link that is not empty, and all moved by an offset. -/
inductive Decorates (scope : LinkScope) (base : UInt64) : List Token → List Token → Prop
  | nil : Decorates scope base [] []
  | keep {token : Token} {plain tokens : List Token} (rest : Decorates scope base plain tokens) :
    Decorates scope base (token :: plain) (token.moveBy base :: tokens)
  | split {token : Token} {plain tokens : List Token} (before link after : Text)
    (hscope : scope.appliesTo token.kind = true) (htext : token.text = before ++ link ++ after)
    (hlink : link ≠ []) (rest : Decorates scope base plain tokens) :
    Decorates scope base (token :: plain)
      ((token.around before link after).map (Token.moveBy base) ++ tokens)

/-- The parts of a span are placed as the span's token, or as the parts of it around a link. -/
theorem placeFrom_split (scope : LinkScope) (span : Span) (offset : Nat) :
    placeFrom offset (span.split scope) = [span.place offset] ∨
      ∃ before link after, scope.appliesTo span.kind = true ∧
        span.text = before ++ link ++ after ∧ link ≠ [] ∧
        Link.find? span.text = some (before.length, link.length) ∧
        placeFrom offset (span.split scope) = (span.place offset).around before link after := by
  rcases Span.split_cases scope span with hsame | ⟨start, width, hscope, hfound, hparts⟩
  · left
    rw [hsame]
    rfl
  right
  obtain ⟨hpos, hle⟩ := Link.find?_bounds hfound
  have hlink : (span.text.drop start).take width ≠ [] := by
    rw [← List.length_pos_iff, List.length_take, List.length_drop]
    omega
  have hafter : (span.text.drop (start + width)).take span.text.length =
      span.text.drop (start + width) :=
    List.take_of_length_le (by rw [List.length_drop]; omega)
  have hfrom : span.text.drop start =
      (span.text.drop start).take width ++ span.text.drop (start + width) := by
    rw [← List.drop_drop, List.take_append_drop]
  have htext : span.text =
      span.text.take start ++ (span.text.drop start).take width ++ span.text.drop (start + width) :=
    calc span.text
        = span.text.take start ++ span.text.drop start := (List.take_append_drop ..).symm
      _ = span.text.take start ++
            ((span.text.drop start).take width ++ span.text.drop (start + width)) :=
          congrArg _ hfrom
      _ = span.text.take start ++ (span.text.drop start).take width ++
            span.text.drop (start + width) := (List.append_assoc ..).symm
  have hfoundParts : Link.find? span.text =
      some ((span.text.take start).length, ((span.text.drop start).take width).length) := by
    rw [hfound, List.length_take, List.length_take, List.length_drop, Nat.min_eq_left (by omega),
      Nat.min_eq_left (by omega)]
  refine ⟨_, _, _, hscope, htext, hlink, hfoundParts, ?_⟩
  rw [hparts]
  -- A part before the link is there exactly if the link does not start the text.
  by_cases hstart : start = 0
  · subst hstart
    rw [Nat.zero_add] at hafter
    simp [placeFrom, Token.around, Token.part, Span.part, Span.place, hafter]
  · have hbefore : span.text.take start ≠ [] := by
      rw [← List.length_pos_iff, List.length_take]
      omega
    simp [placeFrom, Token.around, Token.part, Span.part, Span.place, hafter, hstart, hbefore,
      Nat.add_assoc]

/-- A span placed an offset further on has its token moved by the offset. -/
theorem wrap_place_add (span : Span) (base : UInt64) (offset : Nat) :
    (span.place (base.toNat + offset)).wrap = (span.place offset).wrap.moveBy base := by
  simp [Span.place, Token.wrap, Token.moveBy, Token.word, UInt64.ofNat_add]

/-- The parts of a token an offset further on are its parts moved by the offset. -/
theorem map_wrap_around_place_add (span : Span) (base : UInt64) (offset : Nat)
    (before link after : Text) :
    ((span.place (base.toNat + offset)).around before link after).map Token.wrap =
      ((span.place offset).wrap.around before link after).map (Token.moveBy base) := by
  have hpart : ∀ start text flags,
      ((span.place (base.toNat + offset)).part start text flags).wrap =
        ((span.place offset).wrap.part start text flags).moveBy base := by
    intro start text flags
    simp [Span.place, Token.part, Token.wrap, Token.moveBy, Token.word, UInt64.ofNat_add,
      Nat.add_assoc]
  have hflags : (span.place (base.toNat + offset)).flags = (span.place offset).wrap.flags := rfl
  rw [Token.around, Token.around, hflags]
  split
  · simp only [List.nil_append, List.map_cons, List.map_nil, hpart]
  · simp only [List.cons_append, List.nil_append, List.map_cons, List.map_nil, hpart]

/-- Spans that are placed split and further on decorate the plain ones. -/
theorem decorates_placeFrom (scope : LinkScope) (base : UInt64) (offset : Nat)
    (spans : List Span) :
    Decorates scope base ((placeFrom offset spans).map Token.wrap)
      ((placeFrom (base.toNat + offset) (spans.flatMap (Span.split scope))).map Token.wrap) := by
  induction spans generalizing offset with
  | nil => exact .nil
  | cons span spans ih =>
    have hrest := ih (offset + byteLength span.text)
    rw [← Nat.add_assoc] at hrest
    rw [placeFrom, List.map_cons, List.flatMap_cons, placeFrom_append, Span.spelled_split,
      List.map_append]
    rcases placeFrom_split scope span (base.toNat + offset) with
      hsame | ⟨before, link, after, hscope, htext, hlink, -, hparts⟩
    · rw [hsame, List.map_singleton, wrap_place_add]
      exact .keep hrest
    · rw [hparts, map_wrap_around_place_add]
      exact .split before link after hscope htext hlink hrest

/-- Links and the offset of a line decorate what is read of it: a reader, which splits tokens and
looks back at them as it goes, ends in the same state whatever its scope and its offset, and its
tokens decorate those of a reader that looks for no links in a line at offset zero. -/
theorem decorates_tokenizeAt (scope other : LinkScope) (line : Text) (base offset : UInt64)
    (state : ResumeState) :
    let plain := tokenizeAt .off line 0 state
    let lexed := tokenizeAt scope line base state
    let elsewhere := tokenizeAt other line offset state
    ((readLine .off line 0 state).map Lexed.wrap = some plain ∧
        (readLine scope line base.toNat state).map Lexed.wrap = some lexed ∧
        (readLine other line offset.toNat state).map Lexed.wrap = some elsewhere) ∧
      lexed.finish = elsewhere.finish ∧ Decorates scope base plain.tokens lexed.tokens := by
  intro plain lexed elsewhere
  have hread : ∀ (scope : LinkScope) (base : UInt64),
      (readLine scope line base.toNat state).map Lexed.wrap =
        some (tokenizeAt scope line base state) := by
    intro scope base
    rw [readLine_eq_tokenize, Option.map_some, tokenizeAt]
  have hplain : plain.tokens = (placeFrom 0 (scan .start state line).spans).map Token.wrap := by
    rw [show plain = (tokenize .off line 0 state).wrap from rfl, tokenize_off, Lexed.wrap]
  refine ⟨⟨hread .off 0, hread scope base, hread other offset⟩, rfl, ?_⟩
  rw [hplain]
  exact decorates_placeFrom scope base 0 (scan .start state line).spans

end LineLexer
