import LineLexer.Proofs.Bytewise.Reader

/-!
# Reading markup

The reader of markup, state by state, and that at every place it gives the reader after the move of
the grammar (`Place.markup_reader`). Names and plain text may hold characters of any width, so they
are taken by uniform tests; the reader moves by single bytes only over ASCII characters that it has
seen.
-/

namespace LineLexer

namespace Reader

/-- Takes a construct through its delimiter. With no delimiter on the line, it stays open. -/
def delimited (reader : Reader) (delimiter : Text) (kind : Kind) (next stay : MarkupState)
    (start : Nat) : Option Reader := do
  let (closed, cursor) ← reader.cursor.through? delimiter
  ((reader.seek cursor).goto (.markup (if closed then next else stay))).emit kind start .empty

/-- Takes a comment. -/
def markupComment (reader : Reader) (start : Nat) : Option Reader :=
  reader.delimited "-->".toList .markupComment .content .comment start

/-- Takes a declaration. -/
def doctype (reader : Reader) (start : Nat) : Option Reader :=
  reader.delimited ">".toList .markupDtd .content .doctype start

/-- Takes a processing instruction. -/
def instruction (reader : Reader) (start : Nat) : Option Reader :=
  reader.delimited "?>".toList .markupProcessingInstruction .content .instruction start

/-- Takes an attribute value through its closing quote. -/
def attributeValue (reader : Reader) (quote : Quote) (tag : TagKind) (start : Nat) :
    Option Reader :=
  reader.delimited [quote.char] .markupTagAttributeValue (.startTag tag) (.attributeValue quote tag)
    start

/-! ## Text content -/

/-- Takes plain text: one character, then those up to a blank, a bracket or an ampersand. -/
def textRun (reader : Reader) (start : Nat) : Option Reader :=
  (reader.seek reader.cursor.moveChar).takeWhile .identifier start Markup.isTextChar

/-- The width of the entity reference at the cursor. -/
def entityWidth? (reader : Reader) : Option (Option Nat) := do
  let rest ← reader.cursor.rest?
  some (Markup.entityWidth? (rest.drop 1))

/-- Takes the name of a tag and gives it. -/
def tagName (reader : Reader) : Option (Text × Reader) := do
  let start := reader.cursor.pos
  let reader := reader.seek (reader.cursor.eat isTagNameChar)
  let name ← slice? reader.cursor.line start reader.cursor.pos
  let reader ← reader.emit .markupTagName start (Markup.nameFlags name)
  some (name, reader)

/-- Takes what an opening bracket starts. -/
def opening (reader : Reader) (start : Nat) : Option Reader := do
  let rest ← reader.cursor.rest?
  if "<!--".toList.isPrefixOf rest then
    (reader.seek (reader.cursor.moveBy 4)).markupComment start
  else if reader.cursor.lookAt 1 = '!' then
    (reader.seek (reader.cursor.moveBy 2)).doctype start
  else if reader.cursor.lookAt 1 = '?' then
    (reader.seek (reader.cursor.moveBy 2)).instruction start
  else if reader.cursor.lookAt 1 = '/' ∧ Markup.isNameStart (reader.cursor.lookAt 2) then do
    let reader ← reader.fixed .markupTagDelimiter 2
    let (_, reader) ← reader.tagName
    some (reader.goto (.markup .endTag))
  else if Markup.isNameStart (reader.cursor.lookAt 1) then do
    let reader ← reader.fixed .markupTagDelimiter 1
    let (name, reader) ← reader.tagName
    some (reader.goto (.markup (.startTag (TagKind.ofName name))))
  else reader.textRun start

/-- Takes the next piece of text content. -/
def content (reader : Reader) : Option Reader :=
  let start := reader.cursor.pos
  let c := reader.cursor.look
  if isBlank c then reader.blanks
  else if c = '<' then reader.opening start
  else if c = '&' then do
    match ← reader.entityWidth? with
    | some width => reader.fixed .markupEntityReference width
    | none => reader.textRun start
  else reader.textRun start

/-! ## Tags -/

/-- Takes the next piece of a start tag. -/
def startTag (reader : Reader) (tag : TagKind) : Option Reader :=
  let start := reader.cursor.pos
  let c := reader.cursor.look
  if isBlank c then reader.blanks
  else if c = '/' ∧ reader.cursor.lookAt 1 = '>' then
    reader.fixedTo .markupTagDelimiter 2 (.markup .content)
  else if c = '>' then reader.fixedTo .markupTagDelimiter 1 (.ofElement tag)
  else if c = '=' then reader.fixed .operator 1
  -- A new tag starts before this one has ended: nothing is taken.
  else if c = '<' then some (reader.goto (.markup .content))
  else
    match Quote.ofChar? c with
    | some quote => (reader.seek (reader.cursor.moveBy 1)).attributeValue quote tag start
    | none =>
      let kind :=
        if reader.lastSolid == some .operator then .markupTagAttributeValue else .markupTagAttribute
      (reader.seek reader.cursor.moveChar).takeWhile kind start Markup.isAttributeChar

/-- Takes the next piece of an end tag. -/
def endTag (reader : Reader) : Option Reader :=
  let start := reader.cursor.pos
  let c := reader.cursor.look
  if isBlank c then reader.blanks
  else if c = '>' then reader.fixedTo .markupTagDelimiter 1 (.markup .content)
  else if c = '<' then some (reader.goto (.markup .content))
  else
    (reader.seek reader.cursor.moveChar).takeWhile .markupTagAttribute start Markup.isEndTagChar

/-- Takes the next piece in a state of markup. -/
def markup (reader : Reader) (state : MarkupState) : Option Reader :=
  let start := reader.cursor.pos
  match state with
  | .content => reader.content
  | .startTag tag => reader.startTag tag
  | .endTag => reader.endTag
  | .attributeValue quote tag => reader.attributeValue quote tag start
  | .comment => reader.markupComment start
  | .doctype => reader.doctype start
  | .instruction => reader.instruction start

end Reader

namespace Place

open Reader

/-! ## Constructs with a delimiter -/

/-- The reader of a construct with a delimiter takes what the grammar measures. -/
theorem delimited_reader (place : Place) (state : MarkupState) {lead : Nat}
    (hlead : lead ≤ place.rest.length) {delimiter : Text} (hne : delimiter ≠ [])
    (hascii : AllAscii delimiter) (kind : Kind) (next stay : MarkupState) :
    (place.reader (.markup state) lead).delimited delimiter kind next stay place.pos =
      some (place.answer
        (match widthThrough? delimiter (place.rest.drop lead) with
        | some width => Markup.one kind (lead + width) next
        | none => Markup.one kind (lead + (place.rest.drop lead).length) stay)) := by
  rw [delimited, cursor_reader, Cursor.through?_stand hne hascii]
  cases widthThrough? delimiter (place.rest.drop lead) with
  | some width =>
    simp only [Option.bind_eq_bind, Option.bind_some, seek_reader, goto_reader, if_true,
      emit_reader]
    rfl
  | none =>
    have hend : place.rest.length = lead + (place.rest.drop lead).length := by
      rw [List.length_drop]
      omega
    simp only [Option.bind_eq_bind, Option.bind_some, seek_reader, goto_reader,
      Bool.false_eq_true, if_false, emit_reader, ← hend]
    rfl

/-- An attribute value, after the quote that opens it. -/
theorem attributeValue_reader (place : Place) (state : MarkupState) {lead : Nat}
    (hlead : lead ≤ place.rest.length) (quote : Quote) (tag : TagKind) :
    (place.reader (.markup state) lead).attributeValue quote tag place.pos =
      some (place.answer (Markup.attributeValue quote tag lead (place.rest.drop lead))) := by
  rw [attributeValue, delimited_reader place state hlead (by simp) (by cases quote <;> decide)]
  rfl

/-- A comment, after its opening. -/
theorem markupComment_reader (place : Place) (state : MarkupState) {lead : Nat}
    (hlead : lead ≤ place.rest.length) :
    (place.reader (.markup state) lead).markupComment place.pos =
      some (place.answer (Markup.comment lead (place.rest.drop lead))) := by
  rw [markupComment, delimited_reader place state hlead (by decide) (by decide)]
  rfl

/-- A declaration, after its opening. -/
theorem doctype_reader (place : Place) (state : MarkupState) {lead : Nat}
    (hlead : lead ≤ place.rest.length) :
    (place.reader (.markup state) lead).doctype place.pos =
      some (place.answer (Markup.doctype lead (place.rest.drop lead))) := by
  rw [doctype, delimited_reader place state hlead (by decide) (by decide)]
  rfl

/-- A processing instruction, after its opening. -/
theorem instruction_reader (place : Place) (state : MarkupState) {lead : Nat}
    (hlead : lead ≤ place.rest.length) :
    (place.reader (.markup state) lead).instruction place.pos =
      some (place.answer (Markup.instruction lead (place.rest.drop lead))) := by
  rw [instruction, delimited_reader place state hlead (by decide) (by decide)]
  rfl

/-! ## Text content -/

/-- The name of a tag. -/
theorem tagName_reader (place : Place) (state : MarkupState) :
    (place.reader (.markup state) 0).tagName =
      some (place.rest.takeWhile isTagNameChar,
        (place.cut [⟨.markupTagName, (place.rest.takeWhile isTagNameChar).length, .markup,
          Markup.nameFlags (place.rest.takeWhile isTagNameChar)⟩]).reader (.markup state) 0) := by
  have hslice := Cursor.slice?_stand place.head place.rest 0
    (runLength isTagNameChar place.rest)
  have hpos : (Cursor.stand place.head place.rest 0).pos = place.pos :=
    pos_reader place (.markup state)
  rw [List.drop_zero, take_runLength, hpos, Nat.zero_add] at hslice
  simp only [tagName, cursor_reader, Cursor.eat_stand uniform_isTagNameChar, seek_reader,
    List.drop_zero, Cursor.line_stand, hslice, Option.bind_eq_bind, Option.bind_some, hpos,
    emit_reader, Nat.zero_add]
  rfl

section

variable {place : Place} {rest : Text} (h : place.rest = '<' :: rest)

include h

/-- Whether a bracket opens a comment shows in the bytes. -/
theorem opensComment_reader :
    ((place.reader (.markup .content) 0).cursor.rest?.map "<!--".toList.isPrefixOf) =
      some ("!--".toList.isPrefixOf rest) := by
  rw [cursor_reader, Cursor.rest?_stand, List.drop_zero, h, Option.map_some,
    isPrefixOf_bytewise (by decide)]
  rfl

/-- Whether a bracket opens an end tag shows in the two bytes after it. -/
theorem opensEndTag_reader :
    ((place.reader (.markup .content) 0).cursor.lookAt 1 = '/' ∧
      Markup.isNameStart ((place.reader (.markup .content) 0).cursor.lookAt 2) = true) ↔
        (rest.head? = some '/' ∧ (rest.drop 1).head?.any Markup.isNameStart = true) := by
  rw [lookAt_one_eq h _ (by decide) (by decide) (by decide)]
  refine and_congr_right fun hslash => ?_
  obtain ⟨tail, rfl⟩ := List.head?_eq_some_iff.1 hslash
  rw [lookAt_succ h _ (by decide), byteAt_cons_succ (by decide),
    test_byteAt uniform_isNameStart (by decide)]
  rfl

/-- What an opening bracket starts. -/
theorem opening_reader :
    (place.reader (.markup .content) 0).opening place.pos =
      some (place.answer (Markup.opening rest)) := by
  obtain ⟨bytes, hbytes, hcomment⟩ := Option.map_eq_some_iff.1 (opensComment_reader h)
  have hname : Markup.isNameStart ((place.reader (.markup .content) 0).cursor.lookAt 1) =
      rest.head?.any Markup.isNameStart :=
    test_lookAt_one h _ (by decide) uniform_isNameStart (by decide)
  simp only [opening, hbytes, hcomment, Option.bind_eq_bind, Option.bind_some,
    opensEndTag_reader h, hname]
  simp (disch := decide) only [lookAt_one_eq h]
  rw [Markup.opening]
  -- What a bracket starts is told by the mark that it stands in.
  split
  next hpre =>
    obtain ⟨tail, rfl⟩ := List.isPrefixOf_iff_prefix.1 hpre
    have hmark : place.HasMark 4 := .of_append "<!--".toList h (by decide)
    rw [hmark.seek, markupComment_reader place _ hmark.le, h]
    rfl
  split
  next hbang =>
    obtain ⟨tail, rfl⟩ := List.head?_eq_some_iff.1 hbang
    have hmark : place.HasMark 2 := .of_append "<!".toList h (by decide)
    rw [hmark.seek, doctype_reader place _ hmark.le, h]
    rfl
  split
  next hquestion =>
    obtain ⟨tail, rfl⟩ := List.head?_eq_some_iff.1 hquestion
    have hmark : place.HasMark 2 := .of_append "<?".toList h (by decide)
    rw [hmark.seek, instruction_reader place _ hmark.le, h]
    rfl
  split
  next hslash =>
    obtain ⟨tail, rfl⟩ := List.head?_eq_some_iff.1 hslash.1
    have hmark : place.HasMark 2 := .of_append "</".toList h (by decide)
    simp only [fixed_reader place _ _ hmark.ascii, tagName_reader, Option.bind_some, goto_reader,
      cut_cut, rest_cut_singleton, h]
    rfl
  split
  next =>
    have hmark : place.HasMark 1 := .one h (by decide)
    simp only [fixed_reader place _ _ hmark.ascii, tagName_reader, Option.bind_some, goto_reader,
      cut_cut, rest_cut_singleton, h]
    rfl
  next => exact word_reader h _ _ uniform_isTextChar

end

/-- The next piece of text content. -/
theorem content_reader {place : Place} {c : Char} {rest : Text} (h : place.rest = c :: rest) :
    (place.reader (.markup .content) 0).content = some (place.answer (Markup.content c rest)) := by
  simp (disch := decide) only [content, test_look h _ asciiOnly_isBlank.uniform, look_eq h,
    pos_reader]
  rw [Markup.content]
  split
  next hblank => exact blanks_reader h _ hblank
  split
  next hlt =>
    subst hlt
    exact opening_reader h
  split
  next hamp =>
    subst hamp
    have hwidth : (place.reader (.markup .content) 0).entityWidth? =
        some (Markup.entityWidth? rest) := by
      rw [entityWidth?, cursor_reader, Cursor.rest?_stand, List.drop_zero, h,
        bytewise_cons_of_ascii (by decide)]
      exact congrArg some (entityWidth?_bytewise rest)
    rw [hwidth]
    simp only [Option.bind_eq_bind, Option.bind_some]
    cases hw : Markup.entityWidth? rest with
    | none => exact word_reader h _ _ uniform_isTextChar
    | some width =>
      have hascii : AllAscii (place.rest.take width) := by
        rw [h]
        exact allAscii_entityWidth? hw
      exact fixed_reader place _ _ hascii
  next => exact word_reader h _ _ uniform_isTextChar

/-! ## Tags -/

/-- The next piece of a start tag, if no span before it is empty. -/
theorem startTag_reader {place : Place} {c : Char} {rest : Text} (h : place.rest = c :: rest)
    (hspans : ∀ span ∈ place.spans, span.text ≠ []) (tag : TagKind) :
    (place.reader (.markup (.startTag tag)) 0).startTag tag =
      some (place.answer (Markup.startTag (place.past.solid == some .operator) tag c rest)) := by
  have hend : (c = '/' ∧ (place.reader (.markup (.startTag tag)) 0).cursor.lookAt 1 = '>') ↔
      (c = '/' ∧ rest.head? = some '>') := by
    refine and_congr_right fun hc => ?_
    subst hc
    rw [lookAt_one_eq h _ (by decide) (by decide) (by decide)]
  simp (disch := decide) only [startTag, test_look h _ asciiOnly_isBlank.uniform, look_eq h,
    pos_reader, hend, ofChar?_look h, lastSolid_reader place _ _ hspans]
  simp only [Markup.startTag, Bool.and_eq_true, decide_eq_true_eq]
  split
  next hblank => exact blanks_reader h _ hblank
  split
  next hslash =>
    obtain ⟨rfl, hgt⟩ := hslash
    obtain ⟨tail, rfl⟩ := List.head?_eq_some_iff.1 hgt
    have hmark : place.HasMark 2 := .of_append "/>".toList h (by decide)
    exact fixedTo_reader place _ _ hmark.ascii _
  split
  next hgt => exact fixedTo_one_reader h _ _ (by rw [hgt]; rfl) _
  split
  next heq => exact fixed_one_reader h _ _ (by rw [heq]; rfl)
  split
  -- Nothing is taken, so the reader stays at the place.
  next => rw [goto_reader, answer, cut_nil]
  cases hq : Quote.ofChar? c with
  | some quote =>
    have hmark : place.HasMark 1 := .quote h hq
    simp only [hmark.seek, attributeValue_reader place _ hmark.le, h]
    rfl
  | none => exact word_reader h _ _ uniform_isAttributeChar

/-- The next piece of an end tag. -/
theorem endTag_reader {place : Place} {c : Char} {rest : Text} (h : place.rest = c :: rest) :
    (place.reader (.markup .endTag) 0).endTag = some (place.answer (Markup.endTag c rest)) := by
  simp (disch := decide) only [endTag, test_look h _ asciiOnly_isBlank.uniform, look_eq h,
    pos_reader]
  rw [Markup.endTag]
  split
  next hblank => exact blanks_reader h _ hblank
  split
  next hgt => exact fixedTo_one_reader h _ _ (by rw [hgt]; rfl) _
  split
  next => rw [goto_reader, answer, cut_nil]
  next => exact word_reader h _ _ uniform_isEndTagChar

/-- The reader of markup takes the move of markup at every place. -/
theorem markup_reader {place : Place} {c : Char} {rest : Text} (h : place.rest = c :: rest)
    (hspans : ∀ span ∈ place.spans, span.text ≠ []) (state : MarkupState) :
    (place.reader (.markup state) 0).markup state =
      some (place.answer (Markup.move (place.past.solid == some .operator) state c rest)) := by
  have hrest : place.rest.drop 0 = c :: rest := h
  cases state with
  | content => exact content_reader h
  | startTag tag => exact startTag_reader h hspans tag
  | endTag => exact endTag_reader h
  | attributeValue quote tag =>
    rw [markup, pos_reader, attributeValue_reader place _ (Nat.zero_le _), hrest]
    rfl
  | comment =>
    simp only [markup, pos_reader]
    rw [markupComment_reader place _ (Nat.zero_le _), hrest]
    rfl
  | doctype =>
    simp only [markup, pos_reader]
    rw [doctype_reader place _ (Nat.zero_le _), hrest]
    rfl
  | instruction =>
    simp only [markup, pos_reader]
    rw [instruction_reader place _ (Nat.zero_le _), hrest]
    rfl

end Place

end LineLexer
