import LineLexer.Proofs.Dump.Lines
import LineLexer.Proofs.Text.Quoted

/-!
# The rows of a dump

A row shows a token at its place or the state at the end of a line, and what it shows can be read
off its text: the names in it hold no blank and no line break, and a text in quotes is read up to
its closing quote, in whatever way it is quoted (`IsWrittenAs.read?_eq`). So a dump is read back row
by row (`readRows?_dump`), and what is to be said of the text of a dump can be said of its rows.
-/

namespace LineLexer

/-- What a row of a dump shows: a token, or the word of the state at the end of a line with the
state in words. -/
inductive Row where
  | token (line offset : Nat) (kind text : Text) (flags : Option Text)
  | finish (line : Nat) (word state : Text)
  deriving DecidableEq, Repr

namespace Row

/-! ## Writing and reading -/

/-- A row in writing, with its line feed. -/
def write : Row → Text
  | token line offset kind text flags =>
    decimalText line ++ ':' :: (decimalText offset ++ ':' :: (kind ++ ' ' :: (quoted text ++
      (flags.elim [] fun names => ' ' :: '[' :: (names ++ [']'])) ++ ['\n'])))
  | finish line word state =>
    decimalText line ++ ": end ".toList ++ word ++ ' ' :: (state ++ ['\n'])

/-- The texts that a row may be written as: a text that it shows may be quoted in any way. -/
inductive IsWrittenAs : Row → Text → Prop
  | token (line offset : Nat) (kind : Text) {text quotation : Text} (flags : Option Text)
    (h : IsQuotation text quotation) :
    IsWrittenAs (token line offset kind text flags)
      (decimalText line ++ ':' :: (decimalText offset ++ ':' :: (kind ++ ' ' :: (quotation ++
        (flags.elim [] fun names => ' ' :: '[' :: (names ++ [']'])) ++ ['\n']))))
  | finish (line : Nat) (word state : Text) :
    IsWrittenAs (finish line word state) (finish line word state).write

/-- A row is written as one of the texts that it may be written as. -/
theorem isWrittenAs_write (row : Row) : row.IsWrittenAs row.write := by
  cases row with
  | token line offset kind text flags =>
    exact .token line offset kind flags (isQuotation_quoted text)
  | finish line word state => exact .finish line word state

/-- The number at the head of a text, and the text after it. -/
def leadingNumber? (text : Text) : Option (Nat × Text) :=
  (readNumber? 10 (text.takeWhile Char.isDigit)).map fun n => (n, text.dropWhile Char.isDigit)

/-- The word at the head of a text, and the text after the blank that ends it. -/
def leadingWord (text : Text) : Text × Text :=
  (text.takeWhile (· != ' '), (text.dropWhile (· != ' ')).drop 1)

/-- The names in brackets, if there are any, before the end of a row. -/
def readFlags? : Text → Option (Option Text)
  | '\n' :: [] => some none
  | ' ' :: '[' :: rest =>
    if rest.dropWhile (· != ']') = "]\n".toList then some (some (rest.takeWhile (· != ']')))
    else none
  | _ => none

/-- What a row shows of a token on a line, after the colon that follows the line number. -/
def readToken? (line : Nat) (text : Text) : Option Row :=
  match leadingNumber? text with
  | some (offset, ':' :: rest) =>
    match leadingWord rest with
    | (kind, '"' :: rest) =>
      match unquote? rest with
      | some (text, rest) => (readFlags? rest).map (token line offset kind text)
      | none => none
    | _ => none
  | _ => none

/-- What a row shows. -/
def read? (row : Text) : Option Row :=
  match leadingNumber? row with
  | some (line, ':' :: rest) =>
    if " end ".toList.isPrefixOf rest then
      let (word, state) := leadingWord (rest.drop 5)
      if state.getLast? = some '\n' then some (finish line word state.dropLast) else none
    else readToken? line rest
  | _ => none

/-! ## What is written is read back -/

/-- A row whose names are without the characters that end them, and without line breaks. -/
inductive IsPlain : Row → Prop
  | token (line offset : Nat) {kind : Text} (text : Text) {flags : Option Text}
    (hkind : ' ' ∉ kind ∧ '\n' ∉ kind) (hflags : ∀ names ∈ flags, ']' ∉ names ∧ '\n' ∉ names) :
    IsPlain (token line offset kind text flags)
  | finish (line : Nat) {word state : Text} (hword : ' ' ∉ word ∧ '\n' ∉ word)
    (hstate : '\n' ∉ state) : IsPlain (finish line word state)

/-- A run of characters other than one ends before that one. -/
theorem takeWhile_bne {text : Text} {last : Char} (h : last ∉ text) (rest : Text) :
    (text ++ last :: rest).takeWhile (· != last) = text ∧
      (text ++ last :: rest).dropWhile (· != last) = last :: rest := by
  have hne : ∀ c ∈ text, (c != last) = true := fun c hc =>
    bne_iff_ne.2 fun heq => h (heq ▸ hc)
  rw [List.takeWhile_append_of_pos hne, List.dropWhile_append_of_pos hne]
  simp

/-- A number is read up to the colon after it. -/
theorem leadingNumber?_decimalText (n : Nat) (rest : Text) :
    leadingNumber? (decimalText n ++ ':' :: rest) = some (n, ':' :: rest) := by
  have hdigits : ∀ c ∈ decimalText n, c.isDigit = true := fun c => isDigit_of_mem_decimalText
  rw [leadingNumber?, List.takeWhile_append_of_pos hdigits, List.dropWhile_append_of_pos hdigits]
  simp [readNumber?_decimalText]

/-- A word is read up to the blank after it. -/
theorem leadingWord_append {word : Text} (h : ' ' ∉ word) (rest : Text) :
    leadingWord (word ++ ' ' :: rest) = (word, rest) := by
  simp [leadingWord, takeWhile_bne h]

/-- The names in brackets are read back. -/
theorem readFlags?_write {flags : Option Text} (h : ∀ names ∈ flags, ']' ∉ names) :
    readFlags? ((flags.elim [] fun names => ' ' :: '[' :: (names ++ [']'])) ++ ['\n']) =
      some flags := by
  cases flags with
  | none => rfl
  | some names => simp [readFlags?, takeWhile_bne (h names rfl)]

/-- What a row shows of a token is read back after the number of its line, in whatever way the text
is quoted. -/
theorem readToken?_eq (line offset : Nat) {kind text quotation : Text} {flags : Option Text}
    (hkind : ' ' ∉ kind) (hflags : ∀ names ∈ flags, ']' ∉ names)
    (hquotation : IsQuotation text quotation) :
    readToken? line (decimalText offset ++ ':' :: (kind ++ ' ' :: (quotation ++
      (flags.elim [] fun names => ' ' :: '[' :: (names ++ [']'])) ++ ['\n']))) =
      some (token line offset kind text flags) := by
  obtain ⟨body, rfl, hbody⟩ := hquotation.exists_unquote?_eq
  simp only [readToken?, leadingNumber?_decimalText, leadingWord_append hkind, List.cons_append,
    List.append_assoc, hbody, readFlags?_write hflags, Option.map_some]

/-- The offset of a token tells its row from one that ends a line. -/
theorem not_end_prefix_decimalText (offset : Nat) (rest : Text) :
    ¬" end ".toList <+: decimalText offset ++ rest := by
  intro hprefix
  have hne : decimalText offset ≠ [] := Nat.toDigits_ne_nil
  obtain ⟨c, digits, hdigits⟩ := List.exists_cons_of_ne_nil hne
  have hc : c.isDigit = true := isDigit_of_mem_decimalText (hdigits ▸ List.mem_cons_self)
  rw [hdigits] at hprefix
  obtain rfl : ' ' = c := (List.cons_prefix_cons.1 hprefix).1
  cases hc

/-- A plain row is read back. -/
theorem IsWrittenAs.read?_eq {row : Row} {written : Text} (h : row.IsWrittenAs written)
    (hplain : row.IsPlain) : read? written = some row := by
  cases h with
  | token line offset kind flags hquotation =>
    cases hplain with
    | token _ _ _ hkind hflags =>
      have hnames : ∀ names ∈ flags, ']' ∉ names := fun names h => (hflags names h).1
      have htoken := readToken?_eq line offset hkind.1 hnames hquotation
      simp only [read?, leadingNumber?_decimalText, List.isPrefixOf_iff_prefix,
        not_end_prefix_decimalText, if_false, htoken]
  | finish line word state =>
    cases hplain with
    | finish _ hword hstate =>
      have hline := leadingNumber?_decimalText line
      simp [write, read?, hline, leadingWord_append hword.1]

/-- A number in digits holds no line break. -/
theorem newline_not_mem_decimalText (n : Nat) : '\n' ∉ decimalText n := by
  intro hmem
  have hdigit := isDigit_of_mem_decimalText hmem
  cases hdigit

/-- A plain row is one line. -/
theorem IsWrittenAs.exists_line {row : Row} {written : Text} (h : row.IsWrittenAs written)
    (hplain : row.IsPlain) : ∃ line, written = line ++ ['\n'] ∧ '\n' ∉ line := by
  have hnumber := newline_not_mem_decimalText
  cases h with
  | @token line offset kind text quotation flags hquotation =>
    cases hplain with
    | token _ _ _ hkind hflags =>
      refine ⟨decimalText line ++ ':' :: (decimalText offset ++ ':' :: (kind ++ ' ' :: (quotation ++
        flags.elim [] fun names => ' ' :: '[' :: (names ++ [']'])))), by simp, ?_⟩
      have hnames : '\n' ∉ flags.elim [] fun names => ' ' :: '[' :: (names ++ [']']) := by
        cases flags with
        | none => simp
        | some names => simpa using (hflags names rfl).2
      simp [hnumber, hkind.2, hquotation.newline_not_mem, hnames]
  | finish line word state =>
    cases hplain with
    | finish _ hword hstate =>
      refine ⟨decimalText line ++ ": end ".toList ++ word ++ ' ' :: state, by simp [write], ?_⟩
      simp [hnumber, hword.2, hstate]

end Row

/-- What the rows of a dump show, if each can be read. -/
def readRows? (dump : Text) : Option (List Row) :=
  (terminatedLines dump).mapM Row.read?

/-- Rows in writing. -/
def writeRows (rows : List Row) : Text :=
  rows.flatMap Row.write

/-- Plain rows are the lines of what they make up. -/
theorem terminatedLines_writeRows {rows : List Row} (h : ∀ row ∈ rows, row.IsPlain) :
    terminatedLines (writeRows rows) = rows.map Row.write := by
  rw [writeRows, List.flatMap_def]
  refine terminatedLines_flatten fun text htext => ?_
  obtain ⟨row, hrow, rfl⟩ := List.mem_map.1 htext
  exact row.isWrittenAs_write.exists_line (h row hrow)

/-- Plain rows are read back. -/
theorem readRows?_writeRows {rows : List Row} (h : ∀ row ∈ rows, row.IsPlain) :
    readRows? (writeRows rows) = some rows := by
  rw [readRows?, terminatedLines_writeRows h]
  induction rows with
  | nil => rfl
  | cons row rows ih =>
    rw [List.map_cons, List.mapM_cons, row.isWrittenAs_write.read?_eq (h row List.mem_cons_self),
      ih fun row hrow => h row (List.mem_cons_of_mem _ hrow)]
    rfl

/-! ## The rows of a document -/

/-- The row of a token on a line. -/
def Token.row (line : Nat) (token : Token) : Row :=
  .token line token.offset token.kind.name.toList token.text
    (if token.flags = .empty then none else some token.flags.describe)

/-- The row of the state at the end of a line. -/
def ResumeState.row (line : Nat) (state : ResumeState) : Row :=
  .finish line (wordText state.encode) state.describe

/-- The rows of a line. -/
def Lexed.rows (line : Nat) (lexed : Lexed) : List Row :=
  lexed.tokens.map (Token.row line) ++ [lexed.finish.row line]

/-- The rows of the lines that follow, given the number and offset of the next one and the state it
starts in. -/
def dumpRows (scope : LinkScope) (number offset : Nat) (state : ResumeState) :
    List Text → List Row
  | [] => []
  | line :: lines =>
    let lexed := tokenize scope (trimTerminators line) offset state
    lexed.rows number
      ++ dumpRows scope (number + 1) (offset + byteLength line) lexed.finish lines

/-- The row of a token is written as in a dump. -/
theorem Token.write_row (line : Nat) (token : Token) :
    (Token.row line token).write = tokenRow line token := by
  by_cases hflags : token.flags = .empty <;>
    simp [Token.row, Row.write, tokenRow, Token.describe, hflags]

/-- The row of a state is written as in a dump. -/
theorem ResumeState.write_row (line : Nat) (state : ResumeState) :
    (ResumeState.row line state).write = stateRow line state := by
  simp [ResumeState.row, Row.write, stateRow]

/-- The dump of lines writes their rows. -/
theorem dumpLines_eq (scope : LinkScope) (number offset : Nat) (state : ResumeState)
    (lines : List Text) :
    dumpLines scope number offset state lines =
      writeRows (dumpRows scope number offset state lines) := by
  induction lines generalizing number offset state with
  | nil => rfl
  | cons line lines ih =>
    rw [dumpLines, dumpRows, ih]
    simp [writeRows, Lexed.rows, List.flatMap_map, Token.write_row, ResumeState.write_row]

/-- The name of a kind holds no blank and no line break. -/
theorem Kind.isPlain_name (kind : Kind) : ' ' ∉ kind.name.toList ∧ '\n' ∉ kind.name.toList := by
  cases kind <;> decide

/-- The names of flags hold no bracket and no line break. -/
theorem Flags.isPlain_describe (flags : Flags) :
    ']' ∉ flags.describe ∧ '\n' ∉ flags.describe := by
  unfold Flags.describe
  split <;> decide

/-- A word in writing holds no blank and no line break. -/
theorem isPlain_wordText (word : UInt32) : ' ' ∉ wordText word ∧ '\n' ∉ wordText word := by
  have hall : ∀ digit < 16, digit.digitChar ≠ ' ' ∧ digit.digitChar ≠ '\n' := by decide
  have hdigits : ' ' ∉ hexText word.toNat ∧ '\n' ∉ hexText word.toNat := by
    constructor <;> intro hmem <;>
      obtain ⟨digit, hdigit, heq⟩ := exists_of_mem_toDigits (by decide) hmem
    · exact (hall digit hdigit).1 heq.symm
    · exact (hall digit hdigit).2 heq.symm
  simp [wordText, hdigits]

/-- A name applied to words without a line break holds none. -/
theorem newline_not_mem_applied {name : String} {argument : Text} (hname : '\n' ∉ name.toList)
    (hargument : '\n' ∉ argument) : '\n' ∉ applied name argument := by
  simp [applied, hname, hargument]

/-- A name with one field holds no line break when the field holds none. -/
theorem newline_not_mem_withField {name field : String} {value : Text} (hname : '\n' ∉ name.toList)
    (hfield : '\n' ∉ field.toList) (hvalue : '\n' ∉ value) : '\n' ∉ withField name field value := by
  have hopen : '\n' ∉ " \x7b ".toList := by decide
  have hcolon : '\n' ∉ ": ".toList := by decide
  have hclose : '\n' ∉ " \x7d".toList := by decide
  simp only [withField, List.mem_append, not_or]
  exact ⟨⟨⟨⟨⟨hname, hopen⟩, hfield⟩, hcolon⟩, hvalue⟩, hclose⟩

/-- A state of markup in words holds no line break. -/
theorem MarkupState.newline_not_mem_describe (state : MarkupState) : '\n' ∉ state.describe := by
  cases state with
  | startTag tag => cases tag <;> decide
  | attributeValue quote tag => cases quote <;> cases tag <;> decide
  | content => decide
  | endTag => decide
  | comment => decide
  | doctype => decide
  | instruction => decide

/-- A state of a style in words holds no line break. -/
theorem StyleState.newline_not_mem_describe (state : StyleState) : '\n' ∉ state.describe := by
  have hcontext : ∀ context : StyleContext, '\n' ∉ context.describe := by
    intro context
    cases context with
    | atRule body => cases body <;> decide
    | selector => decide
    | propertyKey => decide
    | propertyValue => decide
  cases state with
  | code context => exact newline_not_mem_applied (by decide) (hcontext context)
  | comment context => exact newline_not_mem_applied (by decide) (hcontext context)
  | literal quote context =>
    cases quote <;> exact newline_not_mem_applied (by decide) (hcontext context)

/-- A state of a script in words holds no line break. -/
theorem ScriptState.newline_not_mem_describe (state : ScriptState) : '\n' ∉ state.describe := by
  cases state with
  | literal quote valid => cases quote <;> cases valid <;> decide
  | template valid => cases valid <;> decide
  | interpolation depth =>
    exact newline_not_mem_withField (by decide) (by decide) (Row.newline_not_mem_decimalText _)
  | code => decide
  | comment => decide

/-- A state in words holds no line break. -/
theorem ResumeState.newline_not_mem_describe (state : ResumeState) : '\n' ∉ state.describe := by
  cases state with
  | markup state => exact newline_not_mem_applied (by decide) state.newline_not_mem_describe
  | style state => exact newline_not_mem_applied (by decide) state.newline_not_mem_describe
  | script state => exact newline_not_mem_applied (by decide) state.newline_not_mem_describe

/-- The row of a token is plain. -/
theorem Token.isPlain_row (line : Nat) (token : Token) : (Token.row line token).IsPlain := by
  refine .token _ _ _ token.kind.isPlain_name fun names hnames => ?_
  split at hnames
  · cases hnames
  · cases hnames
    exact token.flags.isPlain_describe

/-- The row of a state is plain. -/
theorem ResumeState.isPlain_row (line : Nat) (state : ResumeState) :
    (ResumeState.row line state).IsPlain :=
  .finish line (isPlain_wordText _) state.newline_not_mem_describe

/-- The rows of a document are plain. -/
theorem isPlain_of_mem_dumpRows {scope : LinkScope} {number offset : Nat} {state : ResumeState}
    {lines : List Text} {row : Row} (h : row ∈ dumpRows scope number offset state lines) :
    row.IsPlain := by
  induction lines generalizing number offset state with
  | nil => cases h
  | cons line lines ih =>
    rw [dumpRows, List.mem_append, Lexed.rows, List.mem_append, List.mem_singleton] at h
    rcases h with (htoken | rfl) | hmore
    · obtain ⟨token, -, rfl⟩ := List.mem_map.1 htoken
      exact token.isPlain_row number
    · exact ResumeState.isPlain_row number _
    · exact ih hmore

/-- A dump is read back as the rows of its document. -/
theorem readRows?_dump (options : DumpOptions) (document : Text) :
    readRows? (dump options document) =
      some (dumpRows options.scope 1 0 options.start (terminatedLines document)) := by
  rw [dump, dumpLines_eq]
  exact readRows?_writeRows fun _ => isPlain_of_mem_dumpRows

end LineLexer
