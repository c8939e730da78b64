import LineLexer.Proofs.Comment.Toggle
import LineLexer.Proofs.Document
import LineLexer.Proofs.Scan.Recall

/-!
# Constructs over lines

Comments, declarations, processing instructions and quoted values go up to a closing text, which may
be lines away. A line without it is one token and leaves the construct open
(`Construct.tokenize_open`); the first one ends the construct, and what is behind it is lexed as a
line of its own (`Construct.tokenize_close`), since nothing of the construct is recalled that the
scan would ask for. By induction on the lines this is what a document makes of a construct that is
open (`lex_construct`).
-/

namespace LineLexer

namespace Markup

/-- The constructs of markup that go up to a closing delimiter. -/
inductive Construct where
  | comment
  | doctype
  | instruction
  | value (quote : Quote) (tag : TagKind)
  deriving DecidableEq, Repr

namespace Construct

/-- The state in which a construct is open. -/
def state : Construct → MarkupState
  | comment => .comment
  | doctype => .doctype
  | instruction => .instruction
  | value quote tag => .attributeValue quote tag

/-- The text that closes a construct. -/
def closer : Construct → Text
  | comment => "-->".toList
  | doctype => ">".toList
  | instruction => "?>".toList
  | value quote _ => [quote.char]

/-- The kind of the tokens of a construct. -/
def kind : Construct → Kind
  | comment => .markupComment
  | doctype => .markupDtd
  | instruction => .markupProcessingInstruction
  | value _ _ => .markupTagAttributeValue

/-- The state behind a construct. -/
def next : Construct → MarkupState
  | comment | doctype | instruction => .content
  | value _ tag => .startTag tag

/-- A token of a construct. -/
def token (construct : Construct) (offset : Nat) (text : Text) : Token :=
  ⟨construct.kind, .markup, offset, text, .empty⟩

variable {construct : Construct}

/-- An open construct goes through its closing text, or else takes all that is left. -/
theorem move_state (construct : Construct) (afterOperator : Bool) (c : Char) (rest : Text) :
    move afterOperator construct.state c rest =
      match widthThrough? construct.closer (c :: rest) with
      | some width => one construct.kind width construct.next
      | none => one construct.kind (c :: rest).length construct.state := by
  cases hwidth : widthThrough? construct.closer (c :: rest) <;> cases construct <;>
    simp only [closer] at hwidth <;>
    simp only [state, kind, next, move, Markup.comment, Markup.doctype, Markup.instruction,
      delimited, attributeValue, hwidth, Nat.zero_add]

/-- A line without the closing text is one token, and the construct stays open. -/
theorem tokenize_open {line : Text} (h : ¬construct.closer <:+: line) (offset : Nat) :
    tokenize .off line offset (.markup construct.state) =
      ⟨if line = [] then [] else [construct.token offset line], .markup construct.state⟩ := by
  cases line with
  | nil => rw [tokenize_off, scan_nil]; rfl
  | cons c rest =>
    have hwidth : widthThrough? construct.closer (c :: rest) = none := by
      rw [widthThrough?, indexOf?_eq_none h]
      rfl
    have hstep : step .start (.markup construct.state) c rest =
        one construct.kind (c :: rest).length construct.state := by
      rw [step, move_state, hwidth]
    rw [if_neg (List.cons_ne_nil c rest)]
    exact tokenize_of_step hstep offset

/-- A construct is neither an operator nor code, so it is recalled as nothing would be. -/
theorem alike_note (construct : Construct) (text : Text) :
    (Recall.start.note ⟨construct.kind, .markup, text, .empty⟩).Alike .start := by
  cases construct <;> exact ⟨rfl, rfl⟩

/-- A closing text is not empty. -/
theorem closer_ne_nil (construct : Construct) : construct.closer ≠ [] := by
  cases construct <;> exact List.cons_ne_nil _ _

/-- The first closing text of a line ends the construct, and what is behind it is lexed as a line of
its own. -/
theorem tokenize_close {front : Text} (rest : Text)
    (h : ∀ place < front.length,
      ¬construct.closer <+: (front ++ (construct.closer ++ rest)).drop place) (offset : Nat) :
    let behind := tokenize .off rest (offset + byteLength (front ++ construct.closer))
      (.markup construct.next)
    tokenize .off (front ++ (construct.closer ++ rest)) offset (.markup construct.state) =
      ⟨construct.token offset (front ++ construct.closer) :: behind.tokens, behind.finish⟩ := by
  intro behind
  obtain ⟨c, more, hcons⟩ : ∃ c more, front ++ (construct.closer ++ rest) = c :: more :=
    List.exists_cons_of_ne_nil (by simp [construct.closer_ne_nil])
  have hwidth : widthThrough? construct.closer (c :: more) =
      some (front ++ construct.closer).length := by
    rw [← hcons, widthThrough?, indexOf?_append rest h, List.length_append]
    rfl
  have hstep : step .start (.markup construct.state) c more =
      one construct.kind (front ++ construct.closer).length construct.next := by
    rw [step, move_state, hwidth]
  have hpos : 0 < (front ++ construct.closer).length := by
    rw [List.length_pos_iff]
    simp [construct.closer_ne_nil]
  have hscan := scan_cons_singleton hpos hstep
  rw [← hcons, ← List.append_assoc, List.take_left, List.drop_left,
    scan_congr _ _ rest _ (construct.alike_note _)] at hscan
  rw [tokenize_off, ← List.append_assoc, hscan]
  simp only [behind, tokenize_off, placeFrom]
  rfl

/-! ## Over lines -/

/-- What is lexed of lines that a construct stays open over. -/
def overLines (construct : Construct) : Nat → List Text → List Lexed
  | _, [] => []
  | offset, line :: lines =>
    ⟨if line = [] then [] else [construct.token offset line], .markup construct.state⟩ ::
      construct.overLines (offset + byteLength line + 1) lines

end Construct

end Markup

/-- The offset of the line behind some lines. -/
def offsetBehind (offset : Nat) (lines : List Text) : Nat :=
  lines.foldl (fun offset line => offset + byteLength line + 1) offset

open Markup

/-- A construct that is open goes over the lines without its closing text, one token each, and on
the next line through the first closing text. Behind it the line is lexed as one of its own, in the
content of markup or in the tag that a value belongs to. -/
theorem lex_construct (construct : Construct) {lines : List Text} {front rest : Text}
    (hopen : ∀ line ∈ lines, ¬construct.closer <:+: line)
    (hfirst : ∀ place < front.length,
      ¬construct.closer <+: (front ++ (construct.closer ++ rest)).drop place) (offset : Nat) :
    let last := offsetBehind offset lines
    let behind := tokenize .off rest (last + byteLength (front ++ construct.closer))
      (.markup construct.next)
    Session.lex ⟨.off, offset, .markup construct.state⟩
        (lines ++ [front ++ (construct.closer ++ rest)]) =
      construct.overLines offset lines ++
        [⟨construct.token last (front ++ construct.closer) :: behind.tokens, behind.finish⟩] := by
  intro last behind
  induction lines generalizing offset with
  | nil =>
    have hclose := Construct.tokenize_close rest hfirst offset
    simp only [List.nil_append, Session.lex, Session.line, Construct.overLines, hclose]
    rfl
  | cons line lines ih =>
    have hline := Construct.tokenize_open (hopen line List.mem_cons_self) offset
    have hmore := ih (fun other hother => hopen other (List.mem_cons_of_mem _ hother))
      (offset + byteLength line + 1)
    simp only [List.cons_append, Session.lex, Session.line, hline, Construct.overLines, hmore]
    rfl

/-- A value that is open over two lines, one of them empty, gives back the tag of a script. -/
theorem lex_construct_of_value :
    let construct := Construct.value .single .script
    let lines := ["a>".toList, []]
    let front := "b".toList
    let rest := " c".toList
    (∀ line ∈ lines, ¬construct.closer <:+: line) ∧
      (∀ place < front.length,
        ¬construct.closer <+: (front ++ (construct.closer ++ rest)).drop place) ∧
      (Session.lex ⟨.off, 3, .markup construct.state⟩
          (lines ++ [front ++ (construct.closer ++ rest)])).map Lexed.finish =
        [.markup (.attributeValue .single .script), .markup (.attributeValue .single .script),
          .markup (.startTag .script)] := by
  intro construct lines front rest
  have hopen : ∀ line ∈ lines, ¬construct.closer <:+: line := by
    decide
  have hfirst : ∀ place < front.length,
      ¬construct.closer <+: (front ++ (construct.closer ++ rest)).drop place := by
    decide
  refine ⟨hopen, hfirst, ?_⟩
  rw [lex_construct construct hopen hfirst 3]
  decide +kernel

end LineLexer
