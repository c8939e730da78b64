import LineLexer.Proofs.Dump.Row
import LineLexer.Proofs.Kind

/-!
# Rows that show their tokens

A dump has a row for each token and one more for each line (`dumpRows_eq_flatMap`,
`length_dumpRows`), and each row is one line of it. What is in a row of a token can be read off: the
name of a kind is of no other kind, and so are the names of the flags that tokens have
(`Token.IsLexed.flags_mem`). So `readTokenRow?` gives everything back that a row shows of a token
(`Token.IsLexed.readTokenRow?_eq`), in whatever way the text is quoted, and two tokens with the same
row are alike but for their languages, which rows do not show.
-/

namespace LineLexer

/-! ## The rows of a document, line by line -/

/-- What the lines of a document are lexed to, given the offset of the first one and the state it
starts in. -/
def lexLines (scope : LinkScope) (offset : Nat) (state : ResumeState) : List Text → List Lexed
  | [] => []
  | line :: lines =>
    let lexed := tokenize scope (trimTerminators line) offset state
    lexed :: lexLines scope (offset + byteLength line) lexed.finish lines

section

variable (scope : LinkScope) (number offset : Nat) (state : ResumeState) (lines : List Text)

/-- The rows of a document are those of its lines, which are numbered. -/
theorem dumpRows_eq_flatMap :
    dumpRows scope number offset state lines =
      ((lexLines scope offset state lines).zipIdx number).flatMap fun entry =>
        entry.1.rows entry.2 := by
  induction lines generalizing number offset state with
  | nil => rfl
  | cons line lines ih => rw [dumpRows, lexLines, List.zipIdx_cons, List.flatMap_cons, ih]

/-- A document has a row for each token and one for each line. -/
theorem length_dumpRows :
    (dumpRows scope number offset state lines).length =
      ((lexLines scope offset state lines).flatMap Lexed.tokens).length + lines.length := by
  induction lines generalizing number offset state with
  | nil => rfl
  | cons line lines ih =>
    rw [dumpRows, lexLines, List.flatMap_cons, List.length_append, List.length_append, ih,
      Lexed.rows, List.length_append, List.length_map, List.length_singleton, List.length_cons]
    omega

end

/-- Rows are the lines of what they make up, in whatever way their texts are quoted. -/
theorem terminatedLines_of_isWrittenAs {rows : List Row} {written : List Text}
    (h : List.Forall₂ Row.IsWrittenAs rows written) (hplain : ∀ row ∈ rows, row.IsPlain) :
    terminatedLines written.flatten = written := by
  refine terminatedLines_flatten fun text htext => ?_
  induction h with
  | nil => cases htext
  | cons hrow _ ih =>
    rw [List.forall_mem_cons] at hplain
    rcases List.mem_cons.1 htext with rfl | htext
    · exact hrow.exists_line hplain.1
    · exact ih hplain.2 htext

/-! ## The tokens of a row -/

/-- The tokens that lexing a line gives. -/
def Token.IsLexed (token : Token) : Prop :=
  ∃ scope line offset state, token ∈ (tokenize scope line offset state).tokens

/-- The flags that tokens have. -/
def Flags.named : List Flags :=
  [empty, empty.set linkBit, empty.set unknownBit, (empty.set unknownBit).set linkBit]

/-- A token has flags that can be named: a name that is looked up may be unknown, and what is a link
is one. -/
theorem Token.IsLexed.flags_mem {token : Token} (h : token.IsLexed) :
    token.flags ∈ Flags.named := by
  obtain ⟨scope, line, offset, state, h⟩ := h
  obtain ⟨front, span, back, hspans, hpart⟩ := exists_span_of_mem h
  have hspan : span ∈ (scan .start state line).spans := by simp [hspans]
  have hknown : span.flags = .empty ∨ span.flags = .ofKnown false :=
    (isRegular_of_mem_scan hspan).flags_eq.imp_right And.left
  have hflags : token.flags = span.flags ∨ token.flags = span.flags.set Flags.linkBit :=
    Span.flags_of_mem_split (span_mem_split hpart)
  rcases hflags with hflags | hflags <;> rcases hknown with hknown | hknown <;>
    rw [hflags, hknown] <;> decide

/-- The flags of the names in brackets, or of none. -/
def Flags.ofNames? (names : Option Text) : Option Flags :=
  named.find? fun flags => (if flags = empty then none else some flags.describe) == names

/-- What a row shows of a token: the number of its line, its offset, its kind, its text and its
flags. -/
def readTokenRow? (row : Text) : Option (Nat × Nat × Kind × Text × Flags) :=
  match Row.read? row with
  | some (.token line offset name text names) =>
    match Kind.ofName? (String.ofList name), Flags.ofNames? names with
    | some kind, some flags => some (line, offset, kind, text, flags)
    | _, _ => none
  | _ => none

/-- Kinds are read back from their names. -/
theorem Kind.ofName?_name (kind : Kind) : ofName? kind.name = some kind := by
  have hall : ∀ kind ∈ all, ofName? kind.name = some kind := by decide +kernel
  exact hall kind kind.mem_all

/-- Flags are read back from their names. -/
theorem Flags.ofNames?_describe {flags : Flags} (h : flags ∈ named) :
    ofNames? (if flags = empty then none else some flags.describe) = some flags := by
  revert flags
  decide

/-- The row of a token is read back, in whatever way its text is quoted. -/
theorem Token.IsLexed.readTokenRow?_eq {token : Token} (h : token.IsLexed) {line : Nat} {row : Text}
    (hrow : (Token.row line token).IsWrittenAs row) :
    readTokenRow? row = some (line, token.offset, token.kind, token.text, token.flags) := by
  have hread : Row.read? row = some (Token.row line token) := hrow.read?_eq (token.isPlain_row line)
  simp [readTokenRow?, hread, Token.row, String.ofList_toList, Kind.ofName?_name,
    Flags.ofNames?_describe h.flags_mem]

/-! ## Dumps -/

/-- The lines of a dump are the rows of its document in order, one for each token and one for the
state at the end of each line, and so they are in whatever way texts are quoted. The row of a token
can be read back, so two tokens with the same row are on lines of the same number, and have the same
offset, kind, text and flags. -/
theorem dump_unambiguous :
    (∀ options document,
      let lines := lexLines options.scope 0 options.start (terminatedLines document)
      let rows := (lines.zipIdx 1).flatMap fun entry =>
        entry.1.tokens.map (Token.row entry.2) ++ [entry.1.finish.row entry.2]
      terminatedLines (dump options document) = rows.map Row.write ∧
        rows.length = (lines.flatMap Lexed.tokens).length + (terminatedLines document).length ∧
        ∀ written, List.Forall₂ Row.IsWrittenAs rows written →
          terminatedLines written.flatten = written) ∧
    (∀ row : Row, row.IsWrittenAs row.write) ∧
    (∀ token line row, token.IsLexed → (Token.row line token).IsWrittenAs row →
      readTokenRow? row = some (line, token.offset, token.kind, token.text, token.flags)) ∧
    ∀ token other line otherLine row, token.IsLexed → other.IsLexed →
      (Token.row line token).IsWrittenAs row → (Token.row otherLine other).IsWrittenAs row →
        line = otherLine ∧ token.offset = other.offset ∧ token.kind = other.kind ∧
          token.text = other.text ∧ token.flags = other.flags := by
  refine ⟨fun options document => ?_, Row.isWrittenAs_write,
    fun token line row h hrow => h.readTokenRow?_eq hrow, ?_⟩
  · intro lines rows
    have hrows : dumpRows options.scope 1 0 options.start (terminatedLines document) = rows :=
      dumpRows_eq_flatMap ..
    have hplain : ∀ row ∈ rows, row.IsPlain := by
      rw [← hrows]
      exact fun _ => isPlain_of_mem_dumpRows
    refine ⟨?_, ?_, fun written h => terminatedLines_of_isWrittenAs h hplain⟩
    · rw [dump, dumpLines_eq, hrows, terminatedLines_writeRows hplain]
    · rw [← hrows]
      exact length_dumpRows ..
  · intro token other line otherLine row h hother hrow hotherRow
    have hsame := (h.readTokenRow?_eq hrow).symm.trans (hother.readTokenRow?_eq hotherRow)
    simpa only [Option.some.injEq, Prod.mk.injEq] using hsame

/-- A string of a style sheet and one of a script have the same row, of which a part looks like the
names of flags. -/
theorem dump_unambiguous_of_strings :
    let text := "\"\\\" [link]\"".toList
    let token : Token := ⟨.literalStringDouble, .style, 0, text, .empty⟩
    let other : Token := ⟨.literalStringDouble, .script, 0, text, .empty⟩
    let rows := [Token.row 1 other, ResumeState.row 1 (.script .code)]
    (List.Forall₂ Row.IsWrittenAs rows (rows.map Row.write) ∧
      terminatedLines (rows.map Row.write).flatten = rows.map Row.write) ∧
    (token.IsLexed ∧ (Token.row 1 token).IsWrittenAs (tokenRow 1 other) ∧
      readTokenRow? (tokenRow 1 other) = some (1, 0, .literalStringDouble, text, .empty)) ∧
    (other.IsLexed ∧ (Token.row 1 other).IsWrittenAs (tokenRow 1 other) ∧
      token.offset = other.offset ∧ token.kind = other.kind ∧ token.text = other.text ∧
        token.flags = other.flags) := by
  intro text token other rows
  have hrows : List.Forall₂ Row.IsWrittenAs rows (rows.map Row.write) :=
    .cons (dump_unambiguous.2.1 _) (.cons (dump_unambiguous.2.1 _) .nil)
  have hdocument : (((lexLines .comments 0 (.script .code) (terminatedLines text)).zipIdx 1).flatMap
      fun entry => entry.1.tokens.map (Token.row entry.2) ++ [entry.1.finish.row entry.2]) =
        rows := by
    decide +kernel
  have htoken : token.IsLexed :=
    ⟨.comments, text, 0, .style (.code .propertyValue), by decide +kernel⟩
  have hother : other.IsLexed := ⟨.comments, text, 0, .script .code, by decide +kernel⟩
  have hotherRow : (Token.row 1 other).IsWrittenAs (tokenRow 1 other) := by
    rw [← Token.write_row]
    exact dump_unambiguous.2.1 _
  have htokenRow : (Token.row 1 token).IsWrittenAs (tokenRow 1 other) := hotherRow
  exact ⟨⟨hrows, (dump_unambiguous.1 ⟨.comments, .script .code⟩ text).2.2 _ (hdocument ▸ hrows)⟩,
    ⟨htoken, htokenRow, dump_unambiguous.2.2.1 token 1 _ htoken htokenRow⟩,
    hother, hotherRow,
    (dump_unambiguous.2.2.2 token other 1 1 _ htoken hother htokenRow hotherRow).2⟩

end LineLexer
