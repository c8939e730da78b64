import LineLexer.Grammar.Markup
import LineLexer.Proofs.Content.Entity

/-!
# The moves of markup

Text content holds blanks, entity references, what a bracket starts, and for all else plain text
(`content_cases`). In each state markup takes pieces of a few kinds only (`kind_mem_kindsIn`), so
plain text and the names of tags are in text content only (`eq_content_of_mem`).
-/

namespace LineLexer.Markup

/-- A text starts a tag, a comment, a declaration or a processing instruction. -/
def StartsTag (text : Text) : Prop :=
  "<!".toList <+: text ∨ "<?".toList <+: text ∨
    (∃ c rest, text = '<' :: c :: rest ∧ isNameStart c = true) ∨
    ∃ c rest, text = '<' :: '/' :: c :: rest ∧ isNameStart c = true

/-! ## Kinds of pieces -/

section

variable {piece : Piece}

/-- One piece is of its kind. -/
theorem kind_of_mem_one {kind : Kind} {width : Nat} {next : MarkupState}
    (h : piece ∈ (one kind width next).pieces) : piece.kind = kind := by
  obtain rfl := List.mem_singleton.1 h
  rfl

/-- A construct with a delimiter is one piece of its kind, closed or not. -/
theorem kind_of_mem_delimited {delimiter : Text} {kind : Kind} {stay : MarkupState} {lead : Nat}
    {body : Text} (h : piece ∈ (delimited delimiter kind stay lead body).pieces) :
    piece.kind = kind := by
  unfold delimited at h
  split at h <;> exact kind_of_mem_one h

/-- An attribute value is one piece, closed or not. -/
theorem kind_of_mem_attributeValue {quote : Quote} {tag : TagKind} {lead : Nat} {body : Text}
    (h : piece ∈ (attributeValue quote tag lead body).pieces) :
    piece.kind = .markupTagAttributeValue := by
  unfold attributeValue at h
  split at h <;> exact kind_of_mem_one h

/-- The start of a tag is a delimiter and a name. -/
theorem kind_of_mem_tagStart {bracket : Nat} {name : Text} {next : MarkupState}
    (h : piece ∈ (tagStart bracket name next).pieces) :
    piece.kind = .markupTagDelimiter ∨ piece.kind = .markupTagName := by
  simp only [tagStart, List.mem_cons, List.not_mem_nil, or_false] at h
  rcases h with rfl | rfl
  · exact .inl rfl
  · exact .inr rfl

end

/-! ## Text content -/

/-- The kinds of the pieces that a bracket starts. -/
def openingKinds : List Kind :=
  [.markupComment, .markupDtd, .markupProcessingInstruction, .markupTagDelimiter, .markupTagName]

/-- Only a bracket starts a tag. -/
theorem StartsTag.exists_cons {text : Text} (h : StartsTag text) : ∃ rest, text = '<' :: rest := by
  rcases h with ⟨rest, rfl⟩ | ⟨rest, rfl⟩ | ⟨c, rest, rfl, -⟩ | ⟨c, rest, rfl, -⟩ <;>
    exact ⟨_, rfl⟩

/-- A bracket starts a tag or another construct, or it is plain text. -/
theorem startsTag_or_opening_eq (rest : Text) :
    (StartsTag ('<' :: rest) ∧ ∀ piece ∈ (opening rest).pieces, piece.kind ∈ openingKinds) ∨
      ¬StartsTag ('<' :: rest) ∧ opening rest = textRun rest := by
  have hdelimited : ∀ {delimiter kind stay lead body}, kind ∈ openingKinds →
      ∀ piece ∈ (delimited delimiter kind stay lead body).pieces, piece.kind ∈ openingKinds := by
    intro delimiter kind stay lead body hkind piece hpiece
    rwa [kind_of_mem_delimited hpiece]
  have hstart : ∀ {bracket name next},
      ∀ piece ∈ (tagStart bracket name next).pieces, piece.kind ∈ openingKinds := by
    intro bracket name next piece hpiece
    rcases kind_of_mem_tagStart hpiece with hkind | hkind <;> rw [hkind] <;> decide
  unfold opening
  split
  next hcomment =>
    obtain ⟨more, rfl⟩ := List.isPrefixOf_iff_prefix.1 hcomment
    exact .inl ⟨.inl ⟨_, rfl⟩, hdelimited (by decide)⟩
  split
  next hdoctype =>
    obtain ⟨more, rfl⟩ := List.head?_eq_some_iff.1 hdoctype
    exact .inl ⟨.inl ⟨more, rfl⟩, hdelimited (by decide)⟩
  split
  next hinstruction =>
    obtain ⟨more, rfl⟩ := List.head?_eq_some_iff.1 hinstruction
    exact .inl ⟨.inr (.inl ⟨more, rfl⟩), hdelimited (by decide)⟩
  split
  next hclosing =>
    obtain ⟨more, rfl⟩ := List.head?_eq_some_iff.1 hclosing.1
    obtain ⟨c, hhead, hname⟩ := Option.any_eq_true .. |>.1 hclosing.2
    obtain ⟨more, rfl⟩ := List.head?_eq_some_iff.1 hhead
    exact .inl ⟨.inr (.inr (.inr ⟨c, more, rfl, hname⟩)), hstart⟩
  split
  next hname =>
    obtain ⟨c, hhead, hname⟩ := Option.any_eq_true .. |>.1 hname
    obtain ⟨more, rfl⟩ := List.head?_eq_some_iff.1 hhead
    exact .inl ⟨.inr (.inr (.inl ⟨c, more, rfl, hname⟩)), hstart⟩
  next _ hdoctype hinstruction hclosing hname =>
    -- Each way in which a tag could start is one of the tests that failed.
    refine .inr ⟨?_, rfl⟩
    rintro (⟨more, hmore⟩ | ⟨more, hmore⟩ | ⟨c, more, hmore, hc⟩ | ⟨c, more, hmore, hc⟩) <;>
      obtain rfl := (List.cons.inj hmore).2
    · exact hdoctype rfl
    · exact hinstruction rfl
    · exact hname hc
    · exact hclosing ⟨rfl, hc⟩

/-- In text content stand blanks, entity references, what a bracket starts, and plain text. -/
theorem content_cases (c : Char) (rest : Text) :
    (isBlank c = true ∧ content c rest = blanks rest .content) ∨
    (StartsEntity (c :: rest) ∧ ¬StartsTag (c :: rest) ∧
      ∃ width, content c rest = one .markupEntityReference width .content) ∨
    (StartsTag (c :: rest) ∧ ∀ piece ∈ (content c rest).pieces, piece.kind ∈ openingKinds) ∨
    (isBlank c = false ∧ ¬StartsEntity (c :: rest) ∧ ¬StartsTag (c :: rest) ∧
      content c rest = textRun rest) := by
  unfold content
  split
  next hblank => exact .inl ⟨hblank, rfl⟩
  next hblank =>
    rw [Bool.not_eq_true] at hblank
    refine .inr ?_
    split
    next hbracket =>
      subst hbracket
      have hentity : ¬StartsEntity ('<' :: rest) := fun h =>
        absurd (startsEntity_cons_iff.1 h).1 (by decide)
      rcases startsTag_or_opening_eq rest with htag | ⟨htag, hmove⟩
      · exact .inr (.inl htag)
      · exact .inr (.inr ⟨hblank, hentity, htag, hmove⟩)
    next hbracket =>
      have htag : ¬StartsTag (c :: rest) := fun h => by
        obtain ⟨more, hmore⟩ := h.exists_cons
        exact hbracket (List.cons.inj hmore).1
      split
      next hampersand =>
        split
        next width hwidth =>
          exact .inl ⟨startsEntity_cons_iff.2 ⟨hampersand, width, hwidth⟩, htag, width, rfl⟩
        next hnone =>
          refine .inr (.inr ⟨hblank, fun h => ?_, htag, rfl⟩)
          obtain ⟨-, width, hwidth⟩ := startsEntity_cons_iff.1 h
          rw [hnone] at hwidth
          cases hwidth
      next hampersand =>
        exact .inr (.inr ⟨hblank, fun h => hampersand (startsEntity_cons_iff.1 h).1, htag, rfl⟩)

/-! ## All states -/

/-- The kinds of the pieces that markup takes in a state. -/
def kindsIn : MarkupState → List Kind
  | .content => .whitespace :: .identifier :: .markupEntityReference :: openingKinds
  | .startTag _ =>
    [.whitespace, .markupTagDelimiter, .operator, .markupTagAttributeValue, .markupTagAttribute]
  | .endTag => [.whitespace, .markupTagDelimiter, .markupTagAttribute]
  | .attributeValue _ _ => [.markupTagAttributeValue]
  | .comment => [.markupComment]
  | .doctype => [.markupDtd]
  | .instruction => [.markupProcessingInstruction]

/-- The pieces that markup takes are of the kinds of its state. -/
theorem kind_mem_kindsIn (afterOperator : Bool) (state : MarkupState) (c : Char) (rest : Text) :
    ∀ piece ∈ (move afterOperator state c rest).pieces, piece.kind ∈ kindsIn state := by
  have hone : ∀ {kinds : List Kind} {kind width next}, kind ∈ kinds →
      ∀ piece ∈ (one kind width next).pieces, piece.kind ∈ kinds := by
    intro kinds kind width next hkind piece hpiece
    rwa [kind_of_mem_one hpiece]
  have hdelimited : ∀ {delimiter kind stay lead body},
      ∀ piece ∈ (delimited delimiter kind stay lead body).pieces, piece.kind ∈ [kind] :=
    fun _ hpiece => List.mem_singleton.2 (kind_of_mem_delimited hpiece)
  cases state with
  | content =>
    rw [move]
    rcases content_cases c rest with
      ⟨-, hmove⟩ | ⟨-, -, width, hmove⟩ | ⟨-, hkind⟩ | ⟨-, -, -, hmove⟩
    · rw [hmove]
      exact hone (by decide)
    · rw [hmove]
      exact hone (by decide)
    · exact fun piece hpiece => by simp [kindsIn, hkind piece hpiece]
    · rw [hmove]
      exact hone (by decide)
  | startTag tag =>
    simp only [move, startTag]
    -- In the order of the move: blanks, the two ends of a tag, an equals sign, a bracket that
    -- breaks the tag off and takes nothing, a quoted value, and a word.
    split
    · exact hone (by simp [kindsIn])
    split
    · exact hone (by simp [kindsIn])
    split
    · simp [piece, kindsIn]
    split
    · exact hone (by simp [kindsIn])
    split
    · simp
    split
    · intro piece hpiece
      simp [kind_of_mem_attributeValue hpiece, kindsIn]
    · exact hone (by split <;> simp [kindsIn])
  | endTag =>
    simp only [move, endTag]
    split
    · exact hone (by decide)
    split
    · exact hone (by decide)
    split
    · simp
    · exact hone (by decide)
  | attributeValue quote tag =>
    exact fun _ hpiece => List.mem_singleton.2 (kind_of_mem_attributeValue hpiece)
  | comment => exact hdelimited
  | doctype => exact hdelimited
  | instruction => exact hdelimited

/-- Plain text and the names of tags are taken in text content only. -/
theorem eq_content_of_mem {afterOperator : Bool} {state : MarkupState} {c : Char} {rest : Text}
    {piece : Piece} (h : piece ∈ (move afterOperator state c rest).pieces)
    (hkind : piece.kind ∈ [.identifier, .markupTagName]) : state = .content := by
  have hmem := kind_mem_kindsIn afterOperator state c rest piece h
  simp only [List.mem_cons, List.not_mem_nil, or_false] at hkind
  rcases hkind with hkind | hkind
  all_goals
    rw [hkind] at hmem
    cases state with
    | content => rfl
    | _ => simp [kindsIn] at hmem

end LineLexer.Markup
