import LineLexer.Proofs.Grammar.Language
import LineLexer.Proofs.Scan.Recall

/-!
# Scans that differ on what follows an operator

Of markup only a start tag asks whether the last solid span is an operator. From any other state the
answer makes no difference, since a start tag is reached by way of a solid span
(`scan_eq_outside_tags`). In a start tag two scans with different answers are the same, or their
first solid span is a word, which is a value in the one and an attribute in the other
(`scan_startTag_cases`).
-/

namespace LineLexer

namespace Markup

/-- What takes a piece through a delimiter takes one piece. -/
theorem exists_delimited_eq {delimiter : Text} (hdelimiter : delimiter ≠ []) (kind : Kind)
    (stay : MarkupState) (lead : Nat) (body : Text) (hbody : lead = 0 → body ≠ []) :
    ∃ width after, 0 < width ∧ delimited delimiter kind stay lead body = one kind width after := by
  have hwidth := delimited_width_pos hdelimiter kind stay lead hbody
  revert hwidth
  unfold delimited
  split
  all_goals
    intro hwidth
    exact ⟨_, _, by simpa using hwidth, rfl⟩

/-- An attribute value is one piece. -/
theorem exists_attributeValue_eq (quote : Quote) (tag : TagKind) (lead : Nat) (body : Text)
    (hbody : lead = 0 → body ≠ []) :
    ∃ width after, 0 < width ∧
      attributeValue quote tag lead body = one .markupTagAttributeValue width after := by
  have hwidth := attributeValue_width_pos quote tag lead hbody
  revert hwidth
  unfold attributeValue
  split
  all_goals
    intro hwidth
    exact ⟨_, _, by simpa using hwidth, rfl⟩

/-- What a bracket opens starts with a piece that is neither blank nor an attribute. -/
theorem exists_opening_pieces (rest : Text) :
    ∃ first more, (opening rest).pieces = first :: more ∧ first.kind ≠ .whitespace ∧
      first.kind ≠ .markupTagAttribute ∧ 0 < first.width := by
  have hdelimited : ∀ {delimiter kind stay lead body}, delimiter ≠ [] → kind ≠ .whitespace →
      kind ≠ .markupTagAttribute → 0 < lead →
      ∃ first more, (delimited delimiter kind stay lead body).pieces = first :: more ∧
        first.kind ≠ .whitespace ∧ first.kind ≠ .markupTagAttribute ∧ 0 < first.width := by
    intro delimiter kind stay lead body hne hblank hattribute hlead
    obtain ⟨width, after, hwidth, heq⟩ := exists_delimited_eq hne kind stay lead body
      fun h => absurd h (Nat.ne_of_gt hlead)
    exact ⟨_, _, by rw [heq]; rfl, hblank, hattribute, hwidth⟩
  unfold opening
  split
  · exact hdelimited (by decide) (by decide) (by decide) (by decide)
  split
  · exact hdelimited (by decide) (by decide) (by decide) (by decide)
  split
  · exact hdelimited (by decide) (by decide) (by decide) (by decide)
  split
  · exact ⟨_, _, rfl, by decide, by decide, Nat.two_pos⟩
  split
  · exact ⟨_, _, rfl, by decide, by decide, Nat.one_pos⟩
  · exact ⟨_, _, rfl, by simp [piece], by simp [piece], Nat.succ_pos _⟩

end Markup

/-- Start tags are states of markup. -/
theorem ne_startTag_of_language {state : ResumeState} (h : state.language ≠ .markup)
    (tag : TagKind) : state ≠ .markup (.startTag tag) := by
  rintro rfl
  exact h rfl

section

variable {past other : Recall}

/-- Outside start tags, moves after the same code are the same. -/
theorem step_eq_outside_tags (hscript : past.script = other.script) {state : ResumeState}
    (hstate : ∀ tag, state ≠ .markup (.startTag tag)) (c : Char) (rest : Text) :
    step past state c rest = step other state c rest := by
  cases state with
  | style state => rfl
  | script state => simp only [step, hscript]
  | markup state =>
    cases state with
    | startTag tag => exact absurd rfl (hstate tag)
    | content => rfl
    | endTag => rfl
    | attributeValue quote tag => rfl
    | comment => rfl
    | doctype => rfl
    | instruction => rfl

/-- A move to a start tag from another state cuts off a solid span. -/
theorem any_isSolid_of_startTag {state : ResumeState} {tag : TagKind}
    (hstate : ∀ tag, state ≠ .markup (.startTag tag)) {c : Char} {rest : Text}
    (hnext : (step past state c rest).next = .markup (.startTag tag)) :
    (carve (step past state c rest).pieces (c :: rest)).any Span.isSolid = true := by
  -- An embedded language is left by its closing tag only, and that leads to an end tag.
  cases state with
  | style state =>
    rcases Style.move_language state c rest with hstays | ⟨-, -, hmove⟩
    · have hlanguage := hstays.next_language
      rw [show Style.move state c rest = step past (.style state) c rest from rfl, hnext]
        at hlanguage
      cases hlanguage
    · simp [step, hmove, closeElement] at hnext
  | script state =>
    rcases Script.move_language (Script.regexMayFollow past.script) state c rest with
      hstays | ⟨-, -, hmove⟩
    · have hlanguage := hstays.next_language
      rw [show Script.move (Script.regexMayFollow past.script) state c rest =
        step past (.script state) c rest from rfl, hnext] at hlanguage
      cases hlanguage
    · simp [step, hmove, closeElement] at hnext
  | markup state =>
    have hdelimited : ∀ {delimiter kind stay}, delimiter ≠ [] → kind ≠ .whitespace →
        (carve (Markup.delimited delimiter kind stay 0 (c :: rest)).pieces (c :: rest)).any
          Span.isSolid = true := by
      intro delimiter kind stay hne hkind
      obtain ⟨width, after, hwidth, heq⟩ :=
        Markup.exists_delimited_eq hne kind stay 0 (c :: rest) (by simp)
      rw [heq, Markup.one, carve_cons hwidth (List.cons_ne_nil _ _)]
      simp [Span.isSolid, Markup.piece, hkind]
    cases state with
    | startTag tag => exact absurd rfl (hstate tag)
    | content =>
      simp only [step, Markup.move, Markup.content] at hnext ⊢
      split at hnext
      · cases hnext
      split at hnext
      next hblank hbracket =>
        obtain ⟨first, more, hpieces, hkind, -, hwidth⟩ := Markup.exists_opening_pieces rest
        rw [if_neg hblank, if_pos hbracket, hpieces, carve_cons hwidth (List.cons_ne_nil _ _)]
        simp [Span.isSolid, hkind]
      repeat' split at hnext
      all_goals cases hnext
    | endTag =>
      simp only [step, Markup.move, Markup.endTag] at hnext
      repeat' split at hnext
      all_goals cases hnext
    | attributeValue quote element =>
      obtain ⟨width, after, hwidth, heq⟩ :=
        Markup.exists_attributeValue_eq quote element 0 (c :: rest) (by simp)
      rw [step, Markup.move, heq, Markup.one, carve_cons hwidth (List.cons_ne_nil _ _)]
      simp [Span.isSolid, Markup.piece]
    | comment => exact hdelimited (by decide) (by decide)
    | doctype => exact hdelimited (by decide) (by decide)
    | instruction => exact hdelimited (by decide) (by decide)

/-- Outside start tags, scans after the same code are the same. -/
theorem scan_eq_outside_tags (past : Recall) (state : ResumeState) (text : Text) :
    ∀ other : Recall, past.script = other.script → (∀ tag, state ≠ .markup (.startTag tag)) →
      scan past state text = scan other state text := by
  fun_induction scan past state text with
  | case1 =>
    intro other _ _
    rw [scan_nil]
  | case2 past state c rest move spans more ih =>
    intro other hscript hstate
    have hmove : step past state c rest = step other state c rest :=
      step_eq_outside_tags hscript hstate c rest
    have hscript' : (spans.foldl Recall.note past).script =
        (spans.foldl Recall.note other).script := by
      rw [Recall.script_foldl_note, Recall.script_foldl_note, hscript]
    have hmore : more = scan (spans.foldl Recall.note other) move.next
        ((c :: rest).drop move.width) := by
      by_cases hsolid : spans.any Span.isSolid = true
      · -- After a solid span both answer alike.
        refine scan_congr _ _ _ _ ⟨?_, by rw [hscript']⟩
        rw [Recall.solid_foldl_note_eq hsolid past other]
      · -- Without one the move does not lead to a start tag, so the answers still do not matter.
        exact ih _ hscript' fun tag hnext => hsolid (any_isSolid_of_startTag hstate hnext)
    rw [scan_cons, ← hmove, hmore]

/-- Outside start tags, scans are the same if they answer alike on regular expressions. -/
theorem scan_eq_of_regex
    (h : Script.regexMayFollow past.script = Script.regexMayFollow other.script)
    {state : ResumeState} (hstate : ∀ tag, state ≠ .markup (.startTag tag)) (text : Text) :
    scan past state text = scan other state text := by
  calc scan past state text
      = scan ⟨past.solid, other.script⟩ state text := scan_congr _ _ _ _ ⟨rfl, h⟩
    _ = scan other state text := scan_eq_outside_tags _ _ _ _ rfl hstate

end

/-! ## Start tags -/

namespace Markup

/-- What a move in a start tag takes: blanks, nothing, one piece that does not depend on what came
before, or a word that does. -/
theorem startTag_cases (tag : TagKind) (c : Char) (rest : Text) :
    (∀ afterOperator, startTag afterOperator tag c rest = blanks rest (.startTag tag)) ∨
      (c = '<' ∧ ∀ afterOperator, startTag afterOperator tag c rest = ⟨[], .markup .content⟩) ∨
      (∃ kind width next, kind ≠ .whitespace ∧ kind ≠ .markupTagAttribute ∧ 0 < width ∧
        ∀ afterOperator, startTag afterOperator tag c rest = ⟨[piece kind width], next⟩) ∨
      ∃ width, 0 < width ∧ ∀ afterOperator, startTag afterOperator tag c rest =
        one (if afterOperator then .markupTagAttributeValue else .markupTagAttribute) width
          (.startTag tag) := by
  unfold startTag
  split
  · exact .inl fun _ => rfl
  refine .inr ?_
  split
  · exact .inr (.inl ⟨_, 2, _, by decide, by decide, by decide, fun _ => rfl⟩)
  split
  · exact .inr (.inl ⟨_, 1, _, by decide, by decide, by decide, fun _ => rfl⟩)
  split
  · exact .inr (.inl ⟨_, 1, _, by decide, by decide, by decide, fun _ => rfl⟩)
  split
  next hc => exact .inl ⟨hc, fun _ => rfl⟩
  split
  next quote _ =>
    obtain ⟨width, after, hwidth, heq⟩ := exists_attributeValue_eq quote tag 1 rest (by simp)
    exact .inr (.inl ⟨.markupTagAttributeValue, width, .markup after, by decide, by decide, hwidth,
      fun _ => heq⟩)
  -- Only the kind of a word depends on what came before.
  · exact .inr (.inr ⟨_, Nat.succ_pos _, fun _ => rfl⟩)

end Markup

section

variable {past other : Recall} {tag : TagKind} {c : Char} {rest : Text}

/-- A scan from a start tag whose first move takes one piece. -/
theorem scan_startTag {kind : Kind} {width : Nat} {after : ResumeState} (hwidth : 0 < width)
    (hmove : Markup.startTag (past.solid == some .operator) tag c rest =
      ⟨[Markup.piece kind width], after⟩) :
    scan past (.markup (.startTag tag)) (c :: rest) =
      ⟨⟨kind, .markup, (c :: rest).take width, .empty⟩ ::
          (scan (past.note ⟨kind, .markup, (c :: rest).take width, .empty⟩) after
            ((c :: rest).drop width)).spans,
        (scan (past.note ⟨kind, .markup, (c :: rest).take width, .empty⟩) after
          ((c :: rest).drop width)).finish⟩ :=
  scan_cons_singleton hwidth hmove

/-- A scan from a start tag that a bracket breaks off goes on in text content. -/
theorem scan_startTag_of_break
    (hmove : Markup.startTag (past.solid == some .operator) tag c rest = ⟨[], .markup .content⟩) :
    scan past (.markup (.startTag tag)) (c :: rest) = scan past (.markup .content) (c :: rest) := by
  rw [scan_cons, show step past (.markup (.startTag tag)) c rest = ⟨[], .markup .content⟩
    from hmove]
  rfl

/-- What a scan of text content cuts off first at a bracket is neither blank nor an attribute. -/
theorem exists_find?_scan_content (past : Recall) (rest : Text) :
    ∃ first, (scan past (.markup .content) ('<' :: rest)).spans.find? Span.isSolid = some first ∧
      first.kind ≠ .markupTagAttribute := by
  obtain ⟨first, more, hpieces, hkind, hattribute, hwidth⟩ := Markup.exists_opening_pieces rest
  have hstep : (step past (.markup .content) '<' rest).pieces = first :: more := hpieces
  simp only [scan_cons, hstep, carve_cons hwidth (List.cons_ne_nil _ _), List.cons_append]
  exact ⟨_, List.find?_cons_of_pos (by simpa [Span.isSolid] using hkind), hattribute⟩

/-- Two scans from a start tag, of which only the first one follows an operator: they are the same
and do not start with an attribute, or after the same blanks the first one has the word as a value
that is an attribute in the second. -/
theorem scan_startTag_cases (hscript : past.script = other.script)
    (hpast : past.solid = some .operator) (hother : other.solid ≠ some .operator) (tag : TagKind)
    (text : Text) :
    (scan past (.markup (.startTag tag)) text = scan other (.markup (.startTag tag)) text ∧
      ∀ first ∈ (scan other (.markup (.startTag tag)) text).spans.find? Span.isSolid,
        first.kind ≠ .markupTagAttribute) ∨
    ∃ blanks word more others, (∀ blank ∈ blanks, blank.isSolid = false) ∧ word.text ≠ [] ∧
      word.kind = .markupTagAttribute ∧
      (scan other (.markup (.startTag tag)) text).spans = blanks ++ word :: more ∧
      (scan past (.markup (.startTag tag)) text).spans =
        blanks ++ { word with kind := .markupTagAttributeValue } :: others := by
  -- By induction on the length, since blanks leave both scans in the same tag at a shorter text.
  induction hlen : text.length using Nat.strong_induction_on generalizing text with
  | _ n ih =>
    cases text with
    | nil => exact .inl ⟨by rw [scan_nil, scan_nil], by simp⟩
    | cons c rest =>
      rcases Markup.startTag_cases tag c rest with
        hmove | ⟨rfl, hmove⟩ | ⟨kind, width, after, hblank, hattribute, hwidth, hmove⟩ |
          ⟨width, hwidth, hmove⟩
      · -- Blanks are taken alike and recalled in neither scan.
        rw [scan_startTag (Nat.succ_pos _) (hmove _), scan_startTag (Nat.succ_pos _) (hmove _)]
        generalize hspan : Span.mk .whitespace .markup _ .empty = blank
        have hsolid : blank.isSolid = false := by simp [← hspan, Span.isSolid]
        have hnote : ∀ recalled : Recall, recalled.note blank = recalled := fun recalled => by
          simp [← hspan, Recall.note]
        have hshorter : ((c :: rest).drop (runLength isBlank rest + 1)).length < n := by
          rw [← hlen, List.length_drop, List.length_cons]
          omega
        rw [hnote, hnote]
        rcases ih _ hshorter _ rfl with ⟨hsame, hfirst⟩ | ⟨blanks, word, more, others, hblanks,
          htext, hkind, hline, hpastLine⟩
        · refine .inl ⟨by rw [hsame], ?_⟩
          rwa [List.find?_cons_of_neg (by simp [hsolid])]
        · exact .inr ⟨blank :: blanks, word, more, others,
            List.forall_mem_cons.2 ⟨hsolid, hblanks⟩, htext, hkind,
            congrArg (List.cons blank) hline, congrArg (List.cons blank) hpastLine⟩
      · -- Text content takes over, which does not look back.
        rw [scan_startTag_of_break (hmove _), scan_startTag_of_break (hmove _)]
        obtain ⟨first, hfirst, hkind⟩ := exists_find?_scan_content other rest
        refine .inl ⟨scan_eq_outside_tags past _ _ other hscript (by simp), ?_⟩
        rw [hfirst]
        rintro _ ⟨⟩
        exact hkind
      · -- After a solid span both answer alike.
        rw [scan_startTag hwidth (hmove _), scan_startTag hwidth (hmove _)]
        generalize hspan : Span.mk kind .markup _ .empty = span
        have hsolid : span.isSolid = true := by simpa [← hspan, Span.isSolid] using hblank
        rw [scan_congr _ _ _ _ (Recall.alike_of_solid hscript hsolid)]
        refine .inl ⟨rfl, ?_⟩
        rw [List.find?_cons_of_pos hsolid]
        rintro _ ⟨⟩
        simpa [← hspan] using hattribute
      · -- The word is what the answer decides.
        have hvalue : (if past.solid == some .operator then Kind.markupTagAttributeValue
            else .markupTagAttribute) = .markupTagAttributeValue := if_pos (by simp [hpast])
        have hword : (if other.solid == some .operator then Kind.markupTagAttributeValue
            else .markupTagAttribute) = .markupTagAttribute := if_neg (by simpa using hother)
        rw [scan_startTag hwidth (hmove _), scan_startTag hwidth (hmove _), hvalue, hword]
        exact .inr ⟨[], ⟨.markupTagAttribute, .markup, (c :: rest).take width, .empty⟩, _, _,
          by simp, by simp; omega, rfl, rfl, rfl⟩

end

end LineLexer
