import LineLexer.Proofs.Scan.Language
import LineLexer.Proofs.Text.Stretch

/-!
# Regular spans

Each language has its own kinds of tokens (`Language.kinds`). Some of them may hold blanks
(`Language.mayHoldBlanks`), all others are made of other characters, and a span of blanks holds
nothing else. A span is regular if its kind, its flags and its characters agree in this way
(`Span.IsRegular`).

Regularity is shown piece by piece: a piece is as regular as the span it cuts off
(`Piece.IsRegularAt`), and a move is regular if its pieces are and if it takes blanks only as a
whole run (`Move.IsRegularAt`).
-/

namespace LineLexer

/-! ## What a language allows -/

namespace Language

/-- The kinds of the tokens of a language. -/
def kinds : Language → List Kind
  | markup =>
    [.whitespace, .identifier, .operator, .markupTagDelimiter, .markupTagName, .markupTagAttribute,
      .markupTagAttributeValue, .markupComment, .markupDtd, .markupProcessingInstruction,
      .markupEntityReference]
  | style =>
    [.whitespace, .identifier, .reservedWord, .dataType, .functionName, .variableName,
      .preprocessor, .regex, .literalChar, .literalStringDouble, .literalDecimalInt, .operator,
      .separator, .commentMultiline]
  | script => Kind.all.filter fun kind => kind != .preprocessor && !kind.isMarkup

/-- Whether tokens of a kind may hold blanks: besides blanks themselves, comments and quoted texts,
and the pieces of markup and of scripts that run to a delimiter. -/
def mayHoldBlanks (language : Language) (kind : Kind) : Bool :=
  kind == .whitespace || kind.isComment || kind.isStringLike || kind == .markupDtd ||
    kind == .markupProcessingInstruction ||
    language == .script && (kind == .regex || kind == .variableName)

/-- Whether tokens of a kind are names that are looked up: the names of tags and of at-rules. -/
def looksUp : Language → Kind → Bool
  | markup, .markupTagName => true
  | style, .regex => true
  | _, _ => false

end Language

/-- A span whose kind, flags and characters its language allows. -/
structure Span.IsRegular (span : Span) : Prop where
  /-- The kind is one of the language. -/
  kind_mem : span.kind ∈ span.language.kinds
  /-- Only a name that is looked up may be flagged, as unknown. -/
  flags_eq : span.flags = .empty ∨
    span.flags = .ofKnown false ∧ span.language.looksUp span.kind = true
  /-- Blanks are blanks throughout. -/
  isBlank : span.kind = .whitespace → ∀ c ∈ span.text, isBlank c = true
  /-- Other spans hold blanks only if their kind allows it. -/
  isNonBlank : span.language.mayHoldBlanks span.kind = false → ∀ c ∈ span.text, isNonBlank c = true

/-- A regular span is no link: links are made by splitting. -/
theorem Span.IsRegular.isLink_eq_false {span : Span} (h : span.IsRegular) :
    span.flags.isLink = false := by
  rcases h.flags_eq with hflags | ⟨hflags, -⟩
  · rw [hflags]
    decide
  · rw [hflags]
    decide

/-! ## Pieces -/

/-- The span that a piece cuts off the head of a text. -/
def Piece.span (piece : Piece) (text : Text) : Span :=
  ⟨piece.kind, piece.language, text.take piece.width, piece.flags⟩

/-- A piece is regular at a text if the span is that it cuts off. -/
def Piece.IsRegularAt (piece : Piece) (text : Text) : Prop :=
  (piece.span text).IsRegular

/-- What holds of the span of the first piece and of those carved off the rest holds of all. -/
theorem forall_carve_cons {p : Span → Prop} {piece : Piece} {pieces : List Piece} {text : Text}
    (h : p (piece.span text)) (hrest : ∀ span ∈ carve pieces (text.drop piece.width), p span) :
    ∀ span ∈ carve (piece :: pieces) text, p span := by
  intro span hspan
  unfold carve at hspan
  dsimp only at hspan
  split at hspan
  · exact hrest span hspan
  · rcases List.mem_cons.1 hspan with rfl | hspan
    · exact h
    · exact hrest span hspan

section

variable {kind : Kind} {language : Language} {width : Nat} {text : Text}

/-- A piece of a kind that may hold blanks is regular wherever it stands. -/
theorem Piece.isRegularAt_of_mayHoldBlanks (hkind : kind ∈ language.kinds)
    (hsolid : kind ≠ .whitespace) (hblanks : language.mayHoldBlanks kind = true) :
    (Piece.mk kind width language .empty).IsRegularAt text where
  kind_mem := hkind
  flags_eq := .inl rfl
  isBlank hblank := absurd hblank hsolid
  isNonBlank hnone := absurd hblanks (Bool.eq_false_iff.1 hnone)

/-- A piece is regular if it goes over no blank. -/
theorem Piece.isRegularAt_of_isStretch (hkind : kind ∈ language.kinds)
    (hsolid : kind ≠ .whitespace) (htext : IsStretch LineLexer.isNonBlank text width) :
    (Piece.mk kind width language .empty).IsRegularAt text where
  kind_mem := hkind
  flags_eq := .inl rfl
  isBlank hblank := absurd hblank hsolid
  isNonBlank _ := htext

/-- A name that is looked up is regular if it goes over no blank. -/
theorem Piece.isRegularAt_of_looksUp (known : Bool) (hkind : kind ∈ language.kinds)
    (hlooksUp : language.looksUp kind = true) (hsolid : kind ≠ .whitespace)
    (htext : IsStretch LineLexer.isNonBlank text width) :
    (Piece.mk kind width language (.ofKnown known)).IsRegularAt text where
  kind_mem := hkind
  flags_eq := by
    cases known with
    | false => exact .inr ⟨rfl, hlooksUp⟩
    | true => exact .inl rfl
  isBlank hblank := absurd hblank hsolid
  isNonBlank _ := htext

/-- Blanks are a kind of every language, and of course they may hold blanks. -/
theorem Language.whitespace_mem_kinds (language : Language) :
    .whitespace ∈ language.kinds ∧ language.mayHoldBlanks .whitespace = true := by
  cases language <;> decide

/-- A run of blanks is regular. -/
theorem Piece.isRegularAt_of_blanks (h : IsStretch LineLexer.isBlank text width) :
    (Piece.mk .whitespace width language .empty).IsRegularAt text where
  kind_mem := language.whitespace_mem_kinds.1
  flags_eq := .inl rfl
  isBlank _ := h
  isNonBlank hnone := absurd language.whitespace_mem_kinds.2 (Bool.eq_false_iff.1 hnone)

end

/-! ## Moves -/

/-- A move is regular at a text if all the spans are that it cuts off, and if it takes blanks only
as one run up to the next other character. -/
structure Move.IsRegularAt (move : Move) (text : Text) : Prop where
  isRegular : ∀ span ∈ carve move.pieces text, span.IsRegular
  takes_blanks : (∃ piece ∈ move.pieces, piece.kind = .whitespace) →
    ∃ language, move.pieces = [⟨.whitespace, runLength isBlank text, language, .empty⟩]

section

variable {text : Text} {next : ResumeState}

/-- A move that takes nothing is regular. -/
theorem Move.isRegularAt_nil : (Move.mk [] next).IsRegularAt text where
  isRegular _ h := by cases h
  takes_blanks := by
    rintro ⟨piece, hpiece, -⟩
    cases hpiece

/-- A move of one regular piece other than blanks is regular. -/
theorem Move.isRegularAt_singleton {piece : Piece} (h : piece.IsRegularAt text)
    (hsolid : piece.kind ≠ .whitespace) : (Move.mk [piece] next).IsRegularAt text where
  isRegular := forall_carve_cons h (by simp [carve])
  takes_blanks := by
    rintro ⟨other, hother, hblank⟩
    rw [List.mem_singleton.1 hother] at hblank
    exact absurd hblank hsolid

/-- A move of one piece of a kind that may hold blanks is regular wherever it stands. -/
theorem Move.isRegularAt_of_mayHoldBlanks {kind : Kind} {language : Language} {width : Nat}
    (hkind : kind ∈ language.kinds) (hsolid : kind ≠ .whitespace)
    (hblanks : language.mayHoldBlanks kind = true) :
    (Move.mk [⟨kind, width, language, .empty⟩] next).IsRegularAt text :=
  isRegularAt_singleton (Piece.isRegularAt_of_mayHoldBlanks hkind hsolid hblanks) hsolid

/-- A move of one piece that goes over no blank is regular. -/
theorem Move.isRegularAt_of_isStretch {kind : Kind} {language : Language} {width : Nat}
    (hkind : kind ∈ language.kinds) (hsolid : kind ≠ .whitespace)
    (htext : IsStretch isNonBlank text width) :
    (Move.mk [⟨kind, width, language, .empty⟩] next).IsRegularAt text :=
  isRegularAt_singleton (Piece.isRegularAt_of_isStretch hkind hsolid htext) hsolid

/-- A move of two regular pieces other than blanks is regular. -/
theorem Move.isRegularAt_pair {first second : Piece} (hfirst : first.IsRegularAt text)
    (hsecond : second.IsRegularAt (text.drop first.width)) (hsolid : first.kind ≠ .whitespace)
    (hsolidSecond : second.kind ≠ .whitespace) :
    (Move.mk [first, second] next).IsRegularAt text where
  isRegular := forall_carve_cons hfirst (forall_carve_cons hsecond (by simp [carve]))
  takes_blanks := by
    rintro ⟨other, hother, hblank⟩
    rcases List.mem_cons.1 hother with rfl | hother
    · exact absurd hblank hsolid
    · rw [List.mem_singleton.1 hother] at hblank
      exact absurd hblank hsolidSecond

/-- A move that takes all blanks at the head of a text is regular. -/
theorem Move.isRegularAt_blanks {c : Char} {rest : Text} (hc : isBlank c = true)
    (language : Language) :
    (Move.mk [⟨.whitespace, runLength isBlank rest + 1, language, .empty⟩] next).IsRegularAt
      (c :: rest) := by
  have hwidth : runLength isBlank (c :: rest) = runLength isBlank rest + 1 := by
    simp [runLength, hc]
  have hrun : IsStretch isBlank (c :: rest) (runLength isBlank rest + 1) :=
    (isStretch_runLength (fun _ => id) rest).cons hc
  constructor
  · exact forall_carve_cons (Piece.isRegularAt_of_blanks hrun) (by simp [carve])
  · rintro -
    exact ⟨language, by rw [hwidth]⟩

/-- The move at a closing tag is regular: the tag holds no blank. -/
theorem isRegularAt_closeElement {language : Language} (hl : language ≠ .markup)
    (h : atClosingTag language.closingTag text = true) :
    (closeElement language.closingTag).IsRegularAt text := by
  have hstarts : startsWithFolded language.closingTag text = true := by
    rw [atClosingTag, Bool.and_eq_true] at h
    exact h.1
  have htag : IsStretch isNonBlank text language.closingTag.length := by
    refine isStretch_of_startsWithFolded hstarts ?_
    cases language <;> decide
  have hlength : language.closingTag.length = 2 + (language.closingTag.length - 2) := by
    cases language <;> decide
  rw [hlength, isStretch_add] at htag
  obtain ⟨hbracket, hname⟩ := htag
  apply Move.isRegularAt_pair
  · exact Piece.isRegularAt_of_isStretch (by decide) (by decide) hbracket
  · exact Piece.isRegularAt_of_isStretch (by decide) (by decide) hname
  · simp
  · simp

end

end LineLexer
