import LineLexer.Tokenize

/-!
# Documents

A document is lexed line by line: each line starts in the state that the line before it ended in.
-/

namespace LineLexer

namespace Session

/-- Tokenizes lines one after the other. -/
def lex (session : Session) : List Text → List Lexed
  | [] => []
  | line :: lines => (session.line line).1 :: (session.line line).2.lex lines

/-- The tokens of lines, one line after the other. -/
def tokens (session : Session) (lines : List Text) : List Token :=
  (session.lex lines).flatMap Lexed.tokens

@[simp] theorem tokens_nil (session : Session) : session.tokens [] = [] := rfl

/-- The tokens of a line stand before those of the lines after it. -/
@[simp] theorem tokens_cons (session : Session) (line : Text) (lines : List Text) :
    session.tokens (line :: lines) =
      (session.line line).1.tokens ++ (session.line line).2.tokens lines := by
  simp [tokens, lex]

end Session

/-- A token without its place. -/
def Token.span (token : Token) : Span :=
  ⟨token.kind, token.language, token.text, token.flags⟩

/-- Placing spans only adds offsets. -/
@[simp] theorem map_span_placeFrom (offset : Nat) (spans : List Span) :
    (placeFrom offset spans).map Token.span = spans := by
  induction spans generalizing offset with
  | nil => rfl
  | cons span spans ih => rw [placeFrom, List.map_cons, ih]; rfl

/-- The first token with a property of spans has the kind of the first span with it. -/
theorem kind_find?_placeFrom (p : Span → Bool) (offset : Nat) (spans : List Span) :
    ((placeFrom offset spans).find? (p ∘ Token.span)).map Token.kind =
      (spans.find? p).map Span.kind := by
  calc ((placeFrom offset spans).find? (p ∘ Token.span)).map Token.kind
      = (((placeFrom offset spans).map Token.span).find? p).map Span.kind := by
        rw [List.find?_map, Option.map_map]
        rfl
    _ = (spans.find? p).map Span.kind := by rw [map_span_placeFrom]

/-- The last token with a property of spans has the kind of the last span with it. -/
theorem kind_getLast?_filter_placeFrom (p : Span → Bool) (offset : Nat) (spans : List Span) :
    ((placeFrom offset spans).filter (p ∘ Token.span)).getLast?.map Token.kind =
      (spans.filter p).getLast?.map Span.kind := by
  calc ((placeFrom offset spans).filter (p ∘ Token.span)).getLast?.map Token.kind
      = (((placeFrom offset spans).map Token.span).filter p).getLast?.map Span.kind := by
        rw [List.filter_map, List.getLast?_map, Option.map_map]
        rfl
    _ = (spans.filter p).getLast?.map Span.kind := by rw [map_span_placeFrom]

end LineLexer
