import LineLexer.State.Basic
import LineLexer.Span
import LineLexer.Vocabulary.Elements
import Mathlib.Data.List.Basic

/-!
# Blocks of embedded languages

A block of an embedded language is bracketed by the tags of its element: the closing bracket of the
start tag comes directly before it, and the closing tag directly after it. `WellEmbedded` says this
of a list of spans span by span: one that starts a block has been entered, and one that ends a
block is left; `WellEmbedded.bracketed` reads it for whole blocks.

`Embeds` adds what a resume state knows of the spans shown before it: in a start tag, that its name
is the last one and which element it opens, and in an embedded language, that the block at the end
has been entered. `Shows` lists what a move can show, and every outcome preserves `Embeds`
(`Embeds.shows`).
-/

namespace LineLexer

/-! ## Elements and their tags -/

/-- The language of the content of an element. -/
def TagKind.content : TagKind → Language
  | .plain => .markup
  | .script => .script
  | .style => .style

/-- The name of the element whose content is in a language. -/
def Language.element : Language → Text
  | .markup => []
  | .style => "style".toList
  | .script => "script".toList

/-- The element that the start tag at hand belongs to, also while an attribute value is open. -/
def ResumeState.pendingTag : ResumeState → TagKind
  | markup (.startTag tag) | markup (.attributeValue _ tag) => tag
  | _ => .plain

/-- A delimiter of tags with a given text. -/
structure Span.IsDelimiter (span : Span) (text : Text) : Prop where
  kind : span.kind = .markupTagDelimiter
  language : span.language = .markup
  text_eq : span.text = text

/-- A tag name that is the name of the element of a language, letter case aside. -/
structure Span.IsElementName (span : Span) (language : Language) : Prop where
  kind : span.kind = .markupTagName
  markup : span.language = .markup
  text_eq : foldCase span.text = language.element

/-- After an element is entered its content goes on in its language. -/
theorem language_ofElement (tag : TagKind) :
    (ResumeState.ofElement tag).language = tag.content := by
  cases tag <;> rfl

/-- A name that opens an embedded language is that of its element. -/
theorem foldCase_eq_element {name : Text} (h : (TagKind.ofName name).content ≠ .markup) :
    foldCase name = (TagKind.ofName name).content.element := by
  unfold TagKind.ofName at h ⊢
  split
  next hs => exact hs
  split
  next hs => exact hs
  next h1 h2 =>
    rw [if_neg h1, if_neg h2] at h
    exact absurd rfl h

/-! ## Blocks between their tags -/

/-- The last tag name of spans is that of the element of a language and follows the bracket of a
start tag. -/
def Opened (language : Language) (spans : List Span) : Prop :=
  ∃ outer bracket name inner, spans = outer ++ bracket :: name :: inner ∧
    bracket.IsDelimiter "<".toList ∧ name.IsElementName language ∧
    ∀ span ∈ inner, span.kind ≠ .markupTagName

/-- Spans end with the closing bracket of the start tag that opens the element of a language. -/
structure Entered (language : Language) (spans : List Span) : Prop where
  opened : Opened language spans
  bracket : ∃ bracket ∈ spans.getLast?, bracket.IsDelimiter ">".toList

/-- Spans start with the closing tag of the element of a language. -/
def Left (language : Language) (spans : List Span) : Prop :=
  ∃ bracket name rest, spans = bracket :: name :: rest ∧
    bracket.IsDelimiter "</".toList ∧ name.IsElementName language

/-- A block is a stretch of spans of one language that is not longer to either side. -/
structure IsBlock (language : Language) (before block after : List Span) : Prop where
  ne_nil : block ≠ []
  language_eq : ∀ span ∈ block, span.language = language
  before_ne : ∀ span ∈ before.getLast?, span.language ≠ language
  after_ne : ∀ span ∈ after.head?, span.language ≠ language

/-- What stands around a block of a language: directly before it the end of the start tag of its
element, and directly after it, if anything, the closing tag. -/
structure Bracketed (language : Language) (before after : List Span) : Prop where
  entered : Entered language before
  left : after ≠ [] → Left language after

/-- Where spans leave markup an element has been entered, and where they leave an embedded language
its element is left. -/
structure WellEmbedded (spans : List Span) : Prop where
  entered : ∀ before span after, spans = before ++ span :: after → span.language ≠ .markup →
    (∀ last ∈ before.getLast?, last.language ≠ span.language) → Entered span.language before
  left : ∀ before span after, spans = before ++ span :: after → span.language ≠ .markup →
    after ≠ [] → (∀ next ∈ after.head?, next.language ≠ span.language) → Left span.language after

/-- In well-embedded spans every block of an embedded language is bracketed. -/
theorem WellEmbedded.bracketed {spans before block after : List Span} {language : Language}
    (h : WellEmbedded spans) (hl : language ≠ .markup) (hs : spans = before ++ block ++ after)
    (hb : IsBlock language before block after) : Bracketed language before after := by
  obtain ⟨hne, heq, hbefore, hafter⟩ := hb
  constructor
  · obtain ⟨first, rest, rfl⟩ := List.exists_cons_of_ne_nil hne
    have hfirst : first.language = language := heq first List.mem_cons_self
    have hspans : spans = before ++ first :: (rest ++ after) := by simp [hs]
    rw [← hfirst] at hl hbefore ⊢
    exact h.entered before first _ hspans hl hbefore
  · intro ha
    obtain ⟨rest, last, rfl⟩ : ∃ rest last, block = rest ++ [last] :=
      ⟨_, _, (List.dropLast_concat_getLast hne).symm⟩
    have hlast : last.language = language := heq last (by simp)
    have hspans : spans = (before ++ rest) ++ last :: after := by simp [hs]
    rw [← hlast] at hl hafter ⊢
    exact h.left _ last after hspans hl ha hafter

/-! ## Adding spans -/

/-- Spans without a tag name keep the last one. -/
theorem Opened.append {language : Language} {spans more : List Span} (h : Opened language spans)
    (hmore : ∀ span ∈ more, span.kind ≠ .markupTagName) : Opened language (spans ++ more) := by
  obtain ⟨outer, bracket, name, inner, rfl, hb, hn, hinner⟩ := h
  refine ⟨outer, bracket, name, inner ++ more, by simp, hb, hn, ?_⟩
  intro span hspan
  rcases List.mem_append.1 hspan with hspan | hspan
  · exact hinner span hspan
  · exact hmore span hspan

/-- A closing tag stays one with more spans after it. -/
theorem Left.append {language : Language} {spans : List Span} (h : Left language spans)
    (more : List Span) : Left language (spans ++ more) := by
  obtain ⟨bracket, name, rest, rfl, hb, hn⟩ := h
  exact ⟨bracket, name, rest ++ more, by simp, hb, hn⟩

/-- An element of two lists joined stands in the second or in the first. -/
theorem append_eq_append_cons {α : Type} {front back before after : List α} {x : α}
    (h : front ++ back = before ++ x :: after) :
    (∃ mid, before = front ++ mid ∧ back = mid ++ x :: after) ∨
      ∃ mid, front = before ++ x :: mid ∧ after = mid ++ back := by
  rcases List.append_eq_append_iff.1 h with ⟨mid, hb, hm⟩ | ⟨mid, hf, hm⟩
  · exact .inl ⟨mid, hb, hm⟩
  · cases mid with
    -- With nothing between, the element is the first of the second list.
    | nil => exact .inl ⟨[], by simpa using hf.symm, by simpa using hm.symm⟩
    | cons first mid =>
      obtain ⟨rfl, rfl⟩ := List.cons.inj hm
      exact .inr ⟨mid, hf, rfl⟩

/-- Spans stay well embedded with more spans of one language after them, if that language has been
entered where it starts, and if the language at the end, where it is another, is left. -/
theorem WellEmbedded.append {spans more : List Span} {language : Language} (h : WellEmbedded spans)
    (hmore : ∀ span ∈ more, span.language = language)
    (henter : language ≠ .markup → (∀ last ∈ spans.getLast?, last.language ≠ language) →
      Entered language spans)
    (hleave : ∀ last ∈ spans.getLast?, last.language ≠ .markup →
      last.language = language ∨ Left last.language more) :
    WellEmbedded (spans ++ more) := by
  constructor
  · intro before span after hsplit hne hlast
    rcases append_eq_append_cons hsplit with ⟨mid, rfl, rfl⟩ | ⟨mid, rfl, -⟩
    · -- A span among those added starts a block only if it is the first of them.
      have hspan : span.language = language := hmore span (by simp)
      rw [hspan] at hne hlast ⊢
      rcases List.eq_nil_or_concat mid with rfl | ⟨front, last, rfl⟩
      · rw [List.append_nil] at hlast ⊢
        exact henter hne hlast
      · exact absurd (hmore last (by simp)) (hlast last (by simp))
    · exact h.entered before span mid rfl hne hlast
  · intro before span after hsplit hne hafter hnext
    rcases append_eq_append_cons hsplit with ⟨mid, -, rfl⟩ | ⟨mid, rfl, rfl⟩
    · -- A span among those added ends a block only if it is the last of them.
      obtain ⟨next, rest, rfl⟩ := List.exists_cons_of_ne_nil hafter
      have hspan : span.language = language := hmore span (by simp)
      exact absurd ((hmore next (by simp)).trans hspan.symm) (hnext next rfl)
    · cases mid with
      | cons next rest => exact (h.left before span _ rfl hne (by simp) hnext).append more
      | nil =>
        rcases hleave span (by simp) hne with hspan | hleft
        · obtain ⟨next, rest, hnr⟩ := List.exists_cons_of_ne_nil hafter
          have hn : next.language = language := hmore next (by simp at hnr; simp [hnr])
          exact absurd (hn.trans hspan.symm) (hnext next (by simp [hnr]))
        · exact hleft

/-! ## What a state knows of the spans before it -/

/-- Spans end in a block of a language that has been entered; the block may still be empty. -/
def Inside (language : Language) (spans : List Span) : Prop :=
  ∃ before block, spans = before ++ block ∧ Entered language before ∧
    ∀ span ∈ block, span.language = language

/-- The spans shown so far, and the state after them. -/
structure Embeds (spans : List Span) (state : ResumeState) : Prop where
  wellEmbedded : WellEmbedded spans
  /-- In markup, no block of another language is open. -/
  markup : state.language = .markup → ∀ last ∈ spans.getLast?, last.language = .markup
  /-- In a start tag, its name is the last one. -/
  pending : state.pendingTag.content ≠ .markup → Opened state.pendingTag.content spans
  /-- In an embedded language, the block of it has been entered. -/
  inside : state.language ≠ .markup → Inside state.language spans

/-- What a move from a state shows, and the state it goes on in. -/
inductive Shows (state : ResumeState) : List Span → ResumeState → Prop
  /-- Spans of the language of the state, which stays. A start tag is gone on with only without
  another name. -/
  | within {spans : List Span} {next : ResumeState}
      (hspans : ∀ span ∈ spans, span.language = state.language)
      (hnext : next.language = state.language)
      (htag : next.pendingTag = .plain ∨ next.pendingTag = state.pendingTag ∧
        ∀ span ∈ spans, span.kind ≠ .markupTagName) :
      Shows state spans next
  /-- The bracket and the name of a start tag. -/
  | start {bracket name : Span} (hstate : state.language = .markup)
      (hbracket : bracket.IsDelimiter "<".toList) (hkind : name.kind = .markupTagName)
      (hlanguage : name.language = .markup) :
      Shows state [bracket, name] (.markup (.startTag (.ofName name.text)))
  /-- The closing bracket of a start tag, which enters the element. -/
  | enter {bracket : Span} {tag : TagKind} (hstate : state = .markup (.startTag tag))
      (hbracket : bracket.IsDelimiter ">".toList) :
      Shows state [bracket] (.ofElement tag)
  /-- The closing tag of the element, which leaves the embedded language. -/
  | leave {bracket name : Span} (hstate : state.language ≠ .markup)
      (hbracket : bracket.IsDelimiter "</".toList) (hname : name.IsElementName state.language) :
      Shows state [bracket, name] (.markup .endTag)

/-- In an entered block, spans may go on with the language or leave it, and where the block is still
empty, its start tag comes directly before. -/
theorem Inside.last {language : Language} {spans : List Span} (h : Inside language spans) :
    (∀ last ∈ spans.getLast?, last.language = language ∨ last.language = .markup) ∧
      ((∀ last ∈ spans.getLast?, last.language ≠ language) → Entered language spans) := by
  obtain ⟨before, block, rfl, hentered, hblock⟩ := h
  rcases List.eq_nil_or_concat block with rfl | ⟨front, last, rfl⟩
  · rw [List.append_nil]
    refine ⟨fun last hlast => .inr ?_, fun _ => hentered⟩
    obtain ⟨bracket, hb, hdelim⟩ := hentered.bracket
    obtain rfl : bracket = last := Option.some.inj (hb.symm.trans hlast)
    exact hdelim.language
  · have hlast : last.language = language := hblock last (by simp)
    exact ⟨by simpa using .inl hlast, fun hne => absurd hlast (hne last (by simp))⟩

/-- A block goes on with spans of its language. -/
theorem Inside.append {language : Language} {spans more : List Span} (h : Inside language spans)
    (hmore : ∀ span ∈ more, span.language = language) : Inside language (spans ++ more) := by
  obtain ⟨before, block, rfl, hentered, hblock⟩ := h
  refine ⟨before, block ++ more, by simp, hentered, ?_⟩
  intro span hspan
  rcases List.mem_append.1 hspan with hspan | hspan
  · exact hblock span hspan
  · exact hmore span hspan

/-- Markup after markup is well embedded and leaves no block open. -/
theorem Embeds.append_markup {spans more : List Span} {state : ResumeState}
    (h : Embeds spans state) (hstate : state.language = .markup)
    (hmore : ∀ span ∈ more, span.language = .markup) :
    WellEmbedded (spans ++ more) ∧ ∀ last ∈ (spans ++ more).getLast?, last.language = .markup := by
  have hlast := h.markup hstate
  refine ⟨h.wellEmbedded.append hmore (fun hne => absurd rfl hne)
    (fun last hl hne => absurd (hlast last hl) hne), ?_⟩
  intro last hl
  rw [List.getLast?_append] at hl
  cases hm : more.getLast? with
  | none =>
    rw [hm] at hl
    exact hlast last hl
  | some other =>
    rw [hm] at hl
    obtain rfl : other = last := Option.some.inj hl
    exact hmore other (List.mem_of_getLast? hm)

/-- Every outcome of a move preserves what a state knows. -/
theorem Embeds.shows {spans more : List Span} {state next : ResumeState} (h : Embeds spans state)
    (ho : Shows state more next) : Embeds (spans ++ more) next := by
  cases ho with
  | within hspans hnext htag =>
    have hpending : next.pendingTag.content ≠ .markup →
        Opened next.pendingTag.content (spans ++ more) := by
      intro hne
      rcases htag with hplain | ⟨hsame, hnames⟩
      · rw [hplain] at hne
        exact absurd rfl hne
      · rw [hsame] at hne ⊢
        exact (h.pending hne).append hnames
    by_cases hm : state.language = .markup
    · -- Markup goes on after markup.
      rw [hm] at hspans hnext
      obtain ⟨hwell, hlast⟩ := h.append_markup hm hspans
      exact ⟨hwell, fun _ => hlast, hpending, fun hne => absurd hnext hne⟩
    · -- The block goes on, or starts with these spans directly after its start tag.
      obtain ⟨hlast, hentered⟩ := (h.inside hm).last
      have hwell : WellEmbedded (spans ++ more) :=
        h.wellEmbedded.append hspans (fun _ => hentered) fun last hl hne =>
          (hlast last hl).imp_right fun hmarkup => absurd hmarkup hne
      refine ⟨hwell, fun hmarkup => absurd (hnext ▸ hmarkup) hm, hpending, fun _ => ?_⟩
      rw [hnext]
      exact (h.inside hm).append hspans
  | @start bracket name hstate hbracket hkind hlanguage =>
    have hmore : ∀ span ∈ [bracket, name], span.language = .markup := by
      simp [hbracket.language, hlanguage]
    obtain ⟨hwell, hlast⟩ := h.append_markup hstate hmore
    refine ⟨hwell, fun _ => hlast, fun hne => ?_, fun hne => absurd rfl hne⟩
    exact ⟨spans, bracket, name, [], rfl, hbracket,
      ⟨hkind, hlanguage, foldCase_eq_element hne⟩, by simp⟩
  | @enter bracket tag hstate hbracket =>
    subst hstate
    have hmore : ∀ span ∈ [bracket], span.language = .markup := by
      simp [hbracket.language]
    obtain ⟨hwell, hlast⟩ := h.append_markup rfl hmore
    have hplain : (ResumeState.ofElement tag).pendingTag = .plain := by cases tag <;> rfl
    refine ⟨hwell, fun _ => hlast, fun hne => absurd (by rw [hplain]; rfl) hne, fun hne => ?_⟩
    rw [language_ofElement] at hne ⊢
    -- The bracket ends the start tag that the state has kept in mind, so the element is entered.
    have hopened : Opened tag.content (spans ++ [bracket]) :=
      Opened.append (h.pending hne) (by simp [hbracket.kind])
    exact ⟨spans ++ [bracket], [], by simp, ⟨hopened, bracket, by simp, hbracket⟩, by simp⟩
  | @leave bracket name hstate hbracket hname =>
    obtain ⟨hlast, -⟩ := (h.inside hstate).last
    have hmore : ∀ span ∈ [bracket, name], span.language = .markup := by
      simp [hbracket.language, hname.markup]
    -- The block at the end, if it is not empty, is left by these very spans.
    have hwell : WellEmbedded (spans ++ [bracket, name]) := by
      refine h.wellEmbedded.append hmore (fun hne => absurd rfl hne) fun last hl hne => .inr ?_
      rcases hlast last hl with hlang | hmarkup
      · rw [hlang]
        exact ⟨bracket, name, [], rfl, hbracket, hname⟩
      · exact absurd hmarkup hne
    refine ⟨hwell, fun _ => ?_, fun hne => absurd rfl hne, fun hne => absurd rfl hne⟩
    simp [hname.markup]

end LineLexer
