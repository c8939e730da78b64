import LineLexer.Proofs.Grammar.Markup
import LineLexer.Proofs.Scan.Language
import LineLexer.Proofs.Scan.Recall
import LineLexer.Proofs.Text.Stretch
import LineLexer.Proofs.Token.Reach

/-!
# Unquoted attribute values

In a start tag a word is a value if the last piece before it that is not blank is an equals sign. A
value without quotes goes on up to a blank, a quotation mark, an equals sign or a bracket, less a
slash that closes the tag (`unquoted`); but a word goes on only up to a slash. So of an unquoted
value the part before its second word is a value, and all that follows are attributes, since the
last piece before them is a word (`unquoted_value`).

The scan recalls only that there was an operator. In a start tag this is an equals sign, since the
languages that have other operators are left by a closing tag (`Reaches.solid_eq_operator_iff`).
-/

namespace LineLexer

/-- The characters of unquoted values: all but blanks, quotation marks, equals signs and
brackets. -/
def isUnquotedChar (c : Char) : Bool :=
  !isBlank c && c != '"' && c != '\'' && c != '=' && c != '<' && c != '>'

/-- The unquoted value at the head of a text: the run of its characters, less a last slash that
stands directly before a closing bracket. -/
def unquoted (text : Text) : Text :=
  let run := text.takeWhile isUnquotedChar
  if run.getLast? = some '/' ∧ (text.drop run.length).head? = some '>' then run.dropLast else run

/-- The first word of a value: its first character, and those behind it up to a slash. -/
def firstWord (value : Text) : Text :=
  value.take 1 ++ (value.drop 1).takeWhile (· != '/')

/-- An equals sign in a start tag. -/
def Span.equals : Span :=
  ⟨.operator, .markup, ['='], .empty⟩

/-- The last of some spans is an equals sign, blanks aside. -/
def FollowEquals (spans : List Span) : Prop :=
  ∃ front blanks, spans = front ++ .equals :: blanks ∧ ∀ blank ∈ blanks, blank.kind = .whitespace

/-! ## The word before -/

namespace Markup

/-- Markup takes no operator but equals signs in start tags. -/
theorem eq_equals_of_mem_move {afterOperator : Bool} {state : MarkupState} {c : Char}
    {rest : Text} {piece : Piece} (h : piece ∈ (move afterOperator state c rest).pieces)
    (hkind : piece.kind = .operator) :
    c = '=' ∧ ∃ tag, move afterOperator state c rest = one .operator 1 (.startTag tag) := by
  have hmem := kind_mem_kindsIn afterOperator state c rest piece h
  rw [hkind] at hmem
  cases state with
  | startTag tag =>
    revert h
    simp only [move, startTag]
    split
    · exact fun h => by cases (kind_of_mem_one h).symm.trans hkind
    split
    · exact fun h => by cases (kind_of_mem_one h).symm.trans hkind
    split
    · exact fun h => by cases (congrArg Piece.kind (List.mem_singleton.1 h)).symm.trans hkind
    split
    next hequals => exact fun _ => ⟨hequals, tag, rfl⟩
    split
    · exact fun h => absurd h List.not_mem_nil
    split
    · exact fun h => by cases (kind_of_mem_attributeValue h).symm.trans hkind
    · intro h
      have hword := (kind_of_mem_one h).symm.trans hkind
      split at hword <;> cases hword
  | _ => simp [kindsIn, openingKinds] at hmem

end Markup

/-- An operator that a move cuts off in markup is an equals sign. -/
theorem eq_equals_of_mem_step {past : Recall} {state : ResumeState} {c : Char} {rest : Text}
    {span : Span} (h : span ∈ carve (step past state c rest).pieces (c :: rest))
    (hlanguage : span.language = .markup) (hkind : span.kind = .operator) : span = .equals := by
  obtain ⟨here, rfl⟩ := exists_markup_of_mem_step h hlanguage (by rw [hkind]; decide)
  obtain ⟨piece, hpiece, hpieceKind, -⟩ := exists_piece_of_mem_carve h
  obtain ⟨rfl, tag, hmove⟩ := Markup.eq_equals_of_mem_move hpiece (hpieceKind.symm.trans hkind)
  rw [step, hmove, Markup.one, carve_singleton Nat.one_pos (List.cons_ne_nil _ _)] at h
  exact List.mem_singleton.1 h

section

variable {start : ResumeState} {line text : Text} {here : ResumeState} {spans : List Span}

/-- Where a scan stands in markup, an operator that was the last solid span is an equals sign. -/
theorem Reaches.eq_equals_of_getLast? (h : Reaches .start start line spans here text)
    (hhere : here.language = .markup) :
    ∀ last ∈ (spans.filter Span.isSolid).getLast?, last.kind = .operator → last = .equals := by
  refine h.invariant (fun spans state => state.language = .markup →
    ∀ last ∈ (spans.filter Span.isSolid).getLast?, last.kind = .operator → last = .equals)
    ?_ [] (by simp) hhere
  intro past spans state c rest hspans hnext last hlast hkind
  rw [List.filter_append, List.getLast?_append] at hlast
  cases hmove : ((carve (LineLexer.step past state c rest).pieces (c :: rest)).filter
      Span.isSolid).getLast? with
  | some other =>
    -- The move has cut it off, either in markup or with a closing tag.
    rw [hmove, Option.some_or] at hlast
    obtain rfl := Option.some.inj hlast
    have hmem := List.mem_of_mem_filter (List.mem_of_getLast? hmove)
    refine eq_equals_of_mem_step hmem ?_ hkind
    rcases language_of_mem_step hmem with hmarkup | ⟨hlanguage, hstays⟩
    · exact hmarkup
    · rw [hlanguage, ← hstays.next_language]
      exact hnext
  | none =>
    -- It was there before the move, which has been one of markup then.
    rw [hmove, Option.none_or] at hlast
    refine hspans ?_ last hlast hkind
    by_contra hstate
    rcases step_language hstate past c rest with hstays | ⟨bracket, name, hcarve, hbracket, -⟩
    · rw [hstays.next_language] at hnext
      exact hstate hnext
    · have hsolid : bracket.isSolid = true := by simp [Span.isSolid, hbracket.kind]
      rw [hcarve, List.filter_cons_of_pos hsolid] at hmove
      simp at hmove

/-- Some spans end in an equals sign, blanks aside, just if it is the last solid one. -/
theorem followEquals_iff : FollowEquals spans ↔
    (spans.filter Span.isSolid).getLast? = some .equals := by
  have hsolid : ∀ span : Span, span.isSolid = true ↔ span.kind ≠ .whitespace := fun span => by
    simp [Span.isSolid]
  constructor
  · rintro ⟨front, blanks, rfl, hblanks⟩
    have hnone : blanks.filter Span.isSolid = [] :=
      List.filter_eq_nil_iff.2 fun blank hblank => by simp [hsolid, hblanks blank hblank]
    rw [List.filter_append, List.filter_cons_of_pos (by decide), hnone]
    exact List.getLast?_concat
  · intro hlast
    obtain ⟨solid, hfilter⟩ := List.getLast?_eq_some_iff.1 hlast
    obtain ⟨front, back, rfl, -, hback⟩ := List.filter_eq_append_iff.1 hfilter
    obtain ⟨first, blanks, rfl, hfirst, -, hblanks⟩ := List.filter_eq_cons_iff.1 hback
    refine ⟨front ++ first, blanks, (List.append_assoc ..).symm, fun blank hblank => ?_⟩
    by_contra hne
    exact List.filter_eq_nil_iff.1 hblanks blank hblank ((hsolid blank).2 hne)

/-- In a start tag the scan recalls an operator just if the spans cut off end in an equals sign. -/
theorem Reaches.solid_eq_operator_iff {tag : TagKind}
    (h : Reaches .start start line spans (.markup (.startTag tag)) text) :
    ((spans.foldl Recall.note .start).solid == some .operator) = true ↔ FollowEquals spans := by
  have hequals := h.eq_equals_of_getLast? rfl
  rw [followEquals_iff, Recall.solid_foldl_note, beq_iff_eq]
  cases hlast : (spans.filter Span.isSolid).getLast? with
  | none => simp [Recall.start]
  | some last =>
    constructor
    · intro hkind
      exact congrArg some (hequals last hlast (Option.some.inj hkind))
    · intro heq
      rw [Option.some.inj heq]
      rfl

end

/-! ## Words -/

/-- An unquoted value goes on with each of its characters but a slash that closes the tag. -/
theorem unquoted_cons (c : Char) (rest : Text) : unquoted (c :: rest) =
    if isUnquotedChar c = true ∧ ¬(c = '/' ∧ rest.head? = some '>') then c :: unquoted rest
    else [] := by
  by_cases hc : isUnquotedChar c = true
  · have hrun : (c :: rest).takeWhile isUnquotedChar = c :: rest.takeWhile isUnquotedChar :=
      List.takeWhile_cons_of_pos hc
    simp only [unquoted, hrun, hc, true_and, List.length_cons, List.drop_succ_cons]
    cases hmore : rest.takeWhile isUnquotedChar with
    | nil =>
      -- The character is the last of the run.
      by_cases hclose : c = '/' ∧ rest.head? = some '>'
      · simp [hclose]
      · simp [hclose]
    | cons d more =>
      -- The run goes on behind the character, so no bracket stands there.
      have hhead : rest.head? ≠ some '>' := by
        rintro hbracket
        obtain ⟨tail, rfl⟩ := List.head?_eq_some_iff.1 hbracket
        rw [List.takeWhile_cons_of_neg (by decide)] at hmore
        cases hmore
      simp only [List.getLast?_cons_cons, hhead, and_false, not_false_eq_true, if_true,
        List.dropLast_cons_cons]
      split <;> rfl
  · have hrun : (c :: rest).takeWhile isUnquotedChar = [] := List.takeWhile_cons_of_neg hc
    simp [unquoted, hrun, hc]

/-- The characters of words are those of unquoted values but the slash. -/
theorem isAttributeChar_iff {c : Char} : Markup.isAttributeChar c = true ↔
    isUnquotedChar c = true ∧ c ≠ '/' := by
  simp only [Markup.isAttributeChar, isUnquotedChar, Bool.and_eq_true, bne_iff_ne]
  tauto

/-- Behind a word an unquoted value goes on as from there. -/
theorem unquoted_eq_append (text : Text) : unquoted text =
    text.takeWhile Markup.isAttributeChar ++
      unquoted (text.drop (runLength Markup.isAttributeChar text)) := by
  induction text with
  | nil => rfl
  | cons c rest ih =>
    by_cases hc : Markup.isAttributeChar c = true
    · obtain ⟨hunquoted, hslash⟩ := isAttributeChar_iff.1 hc
      have hgoes : isUnquotedChar c = true ∧ ¬(c = '/' ∧ rest.head? = some '>') :=
        ⟨hunquoted, fun h => hslash h.1⟩
      have hrun : runLength Markup.isAttributeChar (c :: rest) =
          runLength Markup.isAttributeChar rest + 1 := by
        simp [runLength, hc]
      rw [unquoted_cons, if_pos hgoes, ih, hrun, List.takeWhile_cons_of_pos hc]
      rfl
    · have hrun : runLength Markup.isAttributeChar (c :: rest) = 0 := by
        simp [runLength, hc]
      rw [hrun, List.takeWhile_cons_of_neg hc]
      rfl

/-- Behind a word an unquoted value goes on with a slash, if it does. -/
theorem takeWhile_unquoted_drop (text : Text) :
    (unquoted (text.drop (runLength Markup.isAttributeChar text))).takeWhile (· != '/') = [] := by
  have hhead := head?_drop_runLength Markup.isAttributeChar text
  cases hdrop : text.drop (runLength Markup.isAttributeChar text) with
  | nil => rfl
  | cons d more =>
    rw [unquoted_cons]
    split
    next hgoes =>
      have hslash : d = '/' := by
        by_contra hne
        have hattribute := isAttributeChar_iff.2 ⟨hgoes.1, hne⟩
        rw [hhead d (by rw [hdrop]; rfl)] at hattribute
        cases hattribute
      exact List.takeWhile_cons_of_neg (by simp [hslash])
    next => rfl

/-- A value that is not empty starts with its first word, and goes on behind it as from there. -/
theorem exists_firstWord {text : Text} (h : unquoted text ≠ []) :
    ∃ c rest, text = c :: rest ∧ isUnquotedChar c = true ∧ ¬(c = '/' ∧ rest.head? = some '>') ∧
      firstWord (unquoted text) = c :: rest.takeWhile Markup.isAttributeChar ∧
      unquoted text = firstWord (unquoted text) ++
        unquoted (rest.drop (runLength Markup.isAttributeChar rest)) := by
  cases text with
  | nil => exact absurd rfl h
  | cons c rest =>
    have hcons := unquoted_cons c rest
    split at hcons
    next hgoes =>
      have hwords := unquoted_eq_append rest
      have hnoSlash : ∀ d ∈ rest.takeWhile Markup.isAttributeChar, (d != '/') = true :=
        fun d hd => bne_iff_ne.2
          (isAttributeChar_iff.1 (List.all_eq_true.1 List.all_takeWhile d hd)).2
      have hfirst : firstWord (unquoted (c :: rest)) =
          c :: rest.takeWhile Markup.isAttributeChar := by
        rw [hcons, firstWord, List.take_succ_cons, List.take_zero, List.drop_succ_cons,
          List.drop_zero, hwords, List.takeWhile_append_of_pos hnoSlash, takeWhile_unquoted_drop,
          List.append_nil]
        rfl
      refine ⟨c, rest, rfl, hgoes.1, hgoes.2, hfirst, ?_⟩
      rw [hfirst, hcons, List.cons_append, ← hwords]
    next => exact absurd hcons h

/-- A word is taken as a value behind an operator, and as an attribute elsewhere. -/
theorem Markup.startTag_word {c : Char} {rest : Text} (hc : isUnquotedChar c = true)
    (hclose : ¬(c = '/' ∧ rest.head? = some '>')) (afterOperator : Bool) (tag : TagKind) :
    startTag afterOperator tag c rest =
      one (if afterOperator then .markupTagAttributeValue else .markupTagAttribute)
        (runLength isAttributeChar rest + 1) (.startTag tag) := by
  simp only [isUnquotedChar, Bool.and_eq_true, bne_iff_ne, Bool.not_eq_true'] at hc
  obtain ⟨⟨⟨⟨⟨hblank, hdouble⟩, hsingle⟩, hequals⟩, hopening⟩, hclosing⟩ := hc
  have hquote : Quote.ofChar? c = none := by simp [Quote.ofChar?, hdouble, hsingle]
  simp [startTag, hblank, hclose, hclosing, hequals, hopening, hquote]

/-! ## Tokens of values -/

section

variable {start : ResumeState} {line : Text} {tag : TagKind}

/-- Every position of an unquoted value is covered by a token of a value, if it is within the first
word and the scan recalls an operator, and by one of an attribute else. -/
theorem exists_covers_unquoted (scope : LinkScope) (base : Nat) (text : Text) :
    ∀ spans pos, Reaches .start start line spans (.markup (.startTag tag)) text →
      base + byteLength (spelled spans) ≤ pos →
      pos < base + byteLength (spelled spans) + byteLength (unquoted text) →
      ∃ token ∈ (tokenize scope line base start).tokens, token.Covers pos ∧ token.kind =
        if (spans.foldl Recall.note .start).solid = some .operator ∧
          pos < base + byteLength (spelled spans) + byteLength (firstWord (unquoted text)) then
          .markupTagAttributeValue
        else .markupTagAttribute := by
  induction hlength : text.length using Nat.strong_induction_on generalizing text with
  | h length ih =>
    intro spans pos hreach hle hlt
    have hne : unquoted text ≠ [] := by
      intro hnil
      rw [hnil, byteLength_nil] at hlt
      omega
    obtain ⟨c, rest, rfl, hc, hclose, hfirst, happend⟩ := exists_firstWord hne
    -- The next move takes the first word, and the value goes on behind it.
    have hthere := hreach.piece (Nat.succ_pos _) (Markup.startTag_word hc hclose
      ((spans.foldl Recall.note .start).solid == some .operator) tag)
    have htake : (c :: rest).take (runLength Markup.isAttributeChar rest + 1) =
        firstWord (unquoted (c :: rest)) := by
      rw [hfirst, List.take_succ_cons, take_runLength]
    rw [htake] at hthere
    by_cases hpos : pos <
        base + byteLength (spelled spans) + byteLength (firstWord (unquoted (c :: rest)))
    · obtain ⟨token, htoken, hcovers, hkind, -⟩ := hthere.exists_covers scope base hle hpos
      refine ⟨token, htoken, hcovers, ?_⟩
      rw [hkind]
      simp [hpos]
    · rw [happend, byteLength_append] at hlt
      have hless : (rest.drop (runLength Markup.isAttributeChar rest)).length < length := by
        rw [← hlength, List.length_cons, List.length_drop]
        omega
      obtain ⟨token, htoken, hcovers, hkind⟩ := ih _ hless _ rfl _ pos hthere
        (by rw [spelled_append, byteLength_append]; simp; omega)
        (by rw [spelled_append, byteLength_append]; simp; omega)
      -- The last solid span before the rest of the value is a word.
      refine ⟨token, htoken, hcovers, hkind.trans ?_⟩
      rw [if_neg, if_neg]
      · exact fun h => hpos h.2
      · rintro ⟨hsolid, -⟩
        rw [List.foldl_append, List.foldl_cons, List.foldl_nil, Recall.solid_note] at hsolid
        revert hsolid
        cases ((spans.foldl Recall.note .start).solid == some .operator) <;> simp [Span.isSolid]

/-- Of an unquoted value in a start tag, the first word is a value if an equals sign stands before
it, blanks aside, and an attribute otherwise. What follows in it are attributes. -/
theorem unquoted_value {text : Text} {spans : List Span}
    (hreach : Reaches .start start line spans (.markup (.startTag tag)) text) (scope : LinkScope)
    (base : Nat) {pos : Nat} (hle : base + byteLength (spelled spans) ≤ pos)
    (hlt : pos < base + byteLength (spelled spans) + byteLength (unquoted text)) :
    ∃ token ∈ (tokenize scope line base start).tokens, token.Covers pos ∧
      (token.kind = .markupTagAttributeValue ∨ token.kind = .markupTagAttribute) ∧
      (token.kind = .markupTagAttributeValue ↔ FollowEquals spans ∧
        pos < base + byteLength (spelled spans) + byteLength (firstWord (unquoted text))) := by
  obtain ⟨token, htoken, hcovers, hkind⟩ :=
    exists_covers_unquoted scope base text spans pos hreach hle hlt
  have hoperator := hreach.solid_eq_operator_iff
  rw [beq_iff_eq] at hoperator
  refine ⟨token, htoken, hcovers, ?_⟩
  split at hkind
  next h =>
    rw [hoperator] at h
    exact ⟨.inl hkind, fun _ => h, fun _ => hkind⟩
  next h =>
    rw [hoperator] at h
    refine ⟨.inr hkind, fun hvalue => ?_, fun hfirst => absurd hfirst h⟩
    rw [hkind] at hvalue
    cases hvalue

end

/-- The first word of an unquoted value behind spaced equals signs. -/
theorem unquoted_value_of_spaced :
    let line := "<a b = /c/d/>".toList
    let spans := (haltAfter 6 .start .initial line).spans
    Reaches .start .initial line spans (.markup (.startTag .plain)) "/c/d/>".toList ∧
      0 + byteLength (spelled spans) ≤ 8 ∧
      8 < 0 + byteLength (spelled spans) + byteLength (unquoted "/c/d/>".toList) ∧
      ∃ token ∈ (tokenize .off line 0 .initial).tokens, token.Covers 8 ∧
        token.kind = .markupTagAttributeValue := by
  intro line spans
  have hreach : Reaches .start .initial line spans (.markup (.startTag .plain))
      "/c/d/>".toList :=
    reaches_of_haltAfter_eq 6 (by decide +kernel)
  have hle : 0 + byteLength (spelled spans) ≤ 8 := by
    decide +kernel
  have hlt : 8 < 0 + byteLength (spelled spans) + byteLength (unquoted "/c/d/>".toList) := by
    decide +kernel
  have hword : 8 < 0 + byteLength (spelled spans) +
      byteLength (firstWord (unquoted "/c/d/>".toList)) := by
    decide +kernel
  have hequals : FollowEquals spans := by
    rw [followEquals_iff]
    decide +kernel
  obtain ⟨token, htoken, hcovers, -, hkind⟩ := unquoted_value hreach .off 0 hle hlt
  exact ⟨hreach, hle, hlt, token, htoken, hcovers, hkind.2 ⟨hequals, hword⟩⟩

/-- Behind its first word an unquoted value goes on with an attribute. -/
theorem exists_unquoted_attribute : ∃ (line text : Text) (start : ResumeState) (tag : TagKind)
    (spans : List Span) (pos : Nat) (token : Token),
    Reaches .start start line spans (.markup (.startTag tag)) text ∧ FollowEquals spans ∧
      byteLength (spelled spans) ≤ pos ∧
      pos < byteLength (spelled spans) + byteLength (unquoted text) ∧
      token ∈ (tokenize .off line 0 start).tokens ∧ token.Covers pos ∧
      token.kind = .markupTagAttribute := by
  let line := "<a b=/c/d>".toList
  let spans := (haltAfter 4 .start .initial line).spans
  let token : Token := ⟨.markupTagAttribute, .markup, 7, "/d".toList, .empty⟩
  have hreach : Reaches .start .initial line spans (.markup (.startTag .plain)) "/c/d>".toList :=
    reaches_of_haltAfter_eq 4 (by decide +kernel)
  have hequals : FollowEquals spans := by
    rw [followEquals_iff]
    decide +kernel
  have htoken : token ∈ (tokenize .off line 0 .initial).tokens := by
    decide +kernel
  have hle : byteLength (spelled spans) ≤ 7 := by
    decide +kernel
  have hlt : 7 < byteLength (spelled spans) + byteLength (unquoted "/c/d>".toList) := by
    decide +kernel
  exact ⟨line, _, .initial, .plain, spans, 7, token, hreach, hequals, hle, hlt, htoken, by decide,
    rfl⟩

end LineLexer
