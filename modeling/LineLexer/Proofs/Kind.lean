import LineLexer.Proofs.Kind.Markup
import LineLexer.Proofs.Kind.Script
import LineLexer.Proofs.Kind.Style
import LineLexer.Proofs.Token.Cover

/-!
# The kinds of tokens

Every token of a line is of a kind that its language has, bears only the flags that its kind may
bear, and holds blanks only if its kind allows it; and no two tokens of blanks stand side by side
(`tokenize_isRegular`).

The moves of all three grammars are regular, so the spans of a scan are (`isRegular_of_mem_scan`). A
move that takes blanks takes them up to the next other character, and a scan that starts at another
character starts with another span, so blanks are never cut in two (`isChain_scan`). Around a link,
a split keeps kinds, languages and characters, and blanks are not split.
-/

namespace LineLexer

/-! ## Spans of a scan -/

/-- Every move is regular. -/
theorem step_isRegularAt (past : Recall) (state : ResumeState) (c : Char) (rest : Text) :
    (step past state c rest).IsRegularAt (c :: rest) := by
  cases state with
  | markup state => exact Markup.move_isRegularAt _ state c rest
  | style state => exact Style.move_isRegularAt state c rest
  | script state => exact Script.move_isRegularAt _ state c rest

/-- The spans of a scan are regular. -/
theorem isRegular_of_mem_scan {past : Recall} {state : ResumeState} {text : Text} {span : Span}
    (h : span ∈ (scan past state text).spans) : span.IsRegular := by
  fun_induction scan past state text with
  | case1 => cases h
  | case2 past state c rest move spans more ih =>
    rcases List.mem_append.1 h with h | h
    · exact (step_isRegularAt past state c rest).isRegular span h
    · exact ih h

/-- Spans may stand side by side if not both are of blanks. -/
def Span.Alternates (before after : Span) : Prop :=
  ¬(before.kind = .whitespace ∧ after.kind = .whitespace)

/-- A scan of a text that starts with no blank does not start with blanks. -/
theorem head_scan_ne_whitespace {text : Text} (hhead : ∀ c ∈ text.head?, isBlank c = false)
    (past : Recall) (state : ResumeState) :
    ∀ first ∈ (scan past state text).spans.head?, first.kind ≠ .whitespace := by
  intro first hfirst hblank
  obtain ⟨more, hspans⟩ := List.head?_eq_some_iff.1 (Option.mem_def.1 hfirst)
  have hmem : first ∈ (scan past state text).spans := by simp [hspans]
  obtain ⟨c, rest, htext⟩ := List.exists_cons_of_ne_nil (text_ne_nil_of_mem_scan hmem)
  have hc : c ∈ text.head? := by
    have hspelled := spelled_scan past state text
    rw [hspans, spelled_cons, htext] at hspelled
    rw [← hspelled]
    rfl
  have hisBlank := (isRegular_of_mem_scan hmem).isBlank hblank c (by simp [htext])
  rw [hhead c hc] at hisBlank
  cases hisBlank

/-- In what a move cuts off and what a scan then makes of the rest, no two spans of blanks stand
side by side. -/
theorem isChain_step {past : Recall} {state : ResumeState} {c : Char} {rest : Text}
    {more : List Span} (hmore : more.IsChain Span.Alternates)
    (hhead : (∀ d ∈ ((c :: rest).drop (step past state c rest).width).head?, isBlank d = false) →
      ∀ first ∈ more.head?, first.kind ≠ .whitespace) :
    (carve (step past state c rest).pieces (c :: rest) ++ more).IsChain Span.Alternates := by
  by_cases hblank : ∃ piece ∈ (step past state c rest).pieces, piece.kind = .whitespace
  · -- The move takes all blanks at the head, so what comes next starts with no blank.
    obtain ⟨language, hpieces⟩ := (step_isRegularAt past state c rest).takes_blanks hblank
    have hwidth : (step past state c rest).width = runLength isBlank (c :: rest) := by
      simp [Move.width, hpieces, totalWidth]
    have hfirst := hhead (by
      rw [hwidth]
      exact head?_drop_runLength isBlank (c :: rest))
    rw [hpieces]
    simp only [carve]
    split
    · exact hmore
    · rw [List.singleton_append, List.isChain_cons]
      exact ⟨fun first hmem h => hfirst first hmem h.2, hmore⟩
  · have hsolid : ∀ span ∈ carve (step past state c rest).pieces (c :: rest),
        span.kind ≠ .whitespace := by
      intro span hspan h
      obtain ⟨piece, hpiece, hkind, -⟩ := exists_piece_of_mem_carve hspan
      exact hblank ⟨piece, hpiece, hkind ▸ h⟩
    refine List.IsChain.append ?_ hmore ?_
    · refine (List.pairwise_of_forall_mem_list ?_).isChain
      exact fun before hbefore after _ h => hsolid before hbefore h.1
    · exact fun last hlast first _ h => hsolid last (List.mem_of_getLast? hlast) h.1

/-- No two spans of blanks stand side by side in a scan. -/
theorem isChain_scan (past : Recall) (state : ResumeState) (text : Text) :
    (scan past state text).spans.IsChain Span.Alternates := by
  fun_induction scan past state text with
  | case1 => exact .nil
  | case2 past state c rest move spans more ih =>
    exact isChain_step ih fun hhead => head_scan_ne_whitespace hhead _ _

/-! ## Parts of a split -/

namespace Span

/-- Blanks are in no scope. -/
theorem appliesTo_whitespace (scope : LinkScope) : scope.appliesTo .whitespace = false := by
  cases scope <;> decide

/-- A part of a split is the span itself, or its kind is in scope. -/
theorem eq_or_appliesTo_of_mem_split {scope : LinkScope} {span part : Span}
    (h : part ∈ span.split scope) : part = span ∨ scope.appliesTo span.kind = true := by
  rcases split_cases scope span with hsplit | ⟨_, _, hscope, -⟩
  · rw [hsplit, List.mem_singleton] at h
    exact .inl h
  · exact .inr hscope

/-- Blanks are not split. -/
theorem eq_of_mem_split_whitespace {scope : LinkScope} {span part : Span}
    (h : part ∈ span.split scope) (hblank : span.kind = .whitespace) : part = span := by
  refine (eq_or_appliesTo_of_mem_split h).resolve_right ?_
  rw [hblank, appliesTo_whitespace]
  decide

/-- A part of a split holds no other characters than the span. -/
theorem text_subset_of_mem_split {scope : LinkScope} {span part : Span}
    (h : part ∈ span.split scope) : part.text ⊆ span.text := by
  intro c hc
  rw [← spelled_split scope span]
  exact List.mem_flatMap.2 ⟨part, h, hc⟩

/-- A part of a split has the flags of the span, and the link that of a link besides. -/
theorem flags_of_mem_split {scope : LinkScope} {span part : Span}
    (h : part ∈ span.split scope) :
    part.flags = span.flags ∨ part.flags = span.flags.set Flags.linkBit := by
  rcases split_cases scope span with hsplit | ⟨start, width, -, -, hsplit⟩
  · rw [hsplit, List.mem_singleton] at h
    exact .inl (by rw [h])
  · rw [hsplit] at h
    split at h
    all_goals
      simp only [List.nil_append, List.cons_append, List.mem_cons, List.not_mem_nil,
        or_false] at h
      rcases h with rfl | rfl | rfl <;> simp [part]

/-- Splitting puts no two spans of blanks side by side. -/
theorem isChain_alternates_flatMap_split (scope : LinkScope) {spans : List Span}
    (h : spans.IsChain Alternates) :
    (spans.flatMap (split scope)).IsChain Alternates := by
  have hne : [] ∉ spans.map (split scope) := by
    simpa using fun span _ => split_ne_nil scope span
  rw [List.flatMap_def, List.isChain_flatten hne, List.isChain_map]
  constructor
  · -- All parts of one span are of its kind, and blanks are one part.
    rintro parts hparts
    obtain ⟨span, -, rfl⟩ := List.mem_map.1 hparts
    by_cases hscope : scope.appliesTo span.kind = true
    · refine (List.pairwise_of_forall_mem_list fun before hbefore after _ hblank => ?_).isChain
      rw [← (kind_of_mem_split hbefore).1, hblank.1, appliesTo_whitespace] at hscope
      cases hscope
    · rw [split, if_neg hscope]
      exact .singleton span
  · refine h.imp fun before after halternates last hlast first hfirst hblank => halternates ?_
    rw [← (kind_of_mem_split (List.mem_of_getLast? hlast)).1,
      ← (kind_of_mem_split (List.mem_of_head? hfirst)).1]
    exact hblank

end Span

/-! ## Blank bytes -/

/-- The bytes of a character are blanks if the character is one. -/
theorem isBlankByte_of_mem_utf8EncodeChar {c : Char} {byte : UInt8}
    (h : byte ∈ String.utf8EncodeChar c) : isBlankByte byte = isBlank c := by
  cases hc : isNonAscii c with
  | true =>
    -- Blanks are ASCII, and the bytes of any other character are above that range.
    have hbyte := le_of_mem_utf8EncodeChar hc h
    rw [asciiOnly_isBlank c hc]
    simp only [isBlankByte, Bool.or_eq_false_iff, beq_eq_false_iff_ne, ne_eq]
    refine ⟨⟨⟨⟨?_, ?_⟩, ?_⟩, ?_⟩, ?_⟩ <;> rintro rfl <;> revert hbyte <;> decide
  | false =>
    rw [utf8EncodeChar_of_ascii hc, List.mem_singleton] at h
    have hcode : ∀ code < 128, isBlankByte (UInt8.ofNat code) = isBlank (Char.ofNat code) := by
      decide
    rw [h, hcode c.toNat (isNonAscii_eq_false.1 hc), Char.ofNat_toNat]

/-- The bytes of a text are those of its characters. -/
theorem mem_utf8Bytes {byte : UInt8} {text : Text} :
    byte ∈ utf8Bytes text ↔ ∃ c ∈ text, byte ∈ String.utf8EncodeChar c :=
  List.mem_flatMap

/-! ## Tokens -/

/-- A token whose kind, flags and bytes its language and the scope allow. -/
structure Token.IsRegular (scope : LinkScope) (token : Token) : Prop where
  /-- The kind is one of the language. -/
  kind_mem : token.kind ∈ token.language.kinds
  /-- Errors are of scripts. -/
  isError : token.kind.isError = true → token.language = .script
  /-- Only kinds in scope have links. -/
  isLink : token.flags.isLink = true → scope.appliesTo token.kind = true
  /-- Only the names of tags and of at-rules may be unknown. -/
  isUnknown : token.flags.isUnknown = true →
    token.language = .markup ∧ token.kind = .markupTagName ∨
      token.language = .style ∧ token.kind = .regex
  /-- A token of blanks is not empty and holds nothing else. -/
  isBlank : token.kind = .whitespace →
    token.text ≠ [] ∧ ∀ byte ∈ utf8Bytes token.text, isBlankByte byte = true
  /-- Other tokens hold blanks only if their kind allows it. -/
  mayHoldBlanks : (∃ byte ∈ utf8Bytes token.text, isBlankByte byte = true) →
    token.language.mayHoldBlanks token.kind = true

/-- Errors are kinds of scripts only. -/
theorem Language.eq_script_of_isError {language : Language} {kind : Kind}
    (hkind : kind ∈ language.kinds) (h : kind.isError = true) : language = .script := by
  cases language with
  | script => rfl
  | markup | style =>
    revert hkind h
    cases kind <;> decide

/-- The names that are looked up are those of tags and of at-rules. -/
theorem Language.looksUp_iff {language : Language} {kind : Kind} :
    language.looksUp kind = true ↔
      language = .markup ∧ kind = .markupTagName ∨ language = .style ∧ kind = .regex := by
  cases language <;> cases kind <;> decide

/-- The parts of a regular span are regular tokens, wherever they are placed. -/
theorem Span.IsRegular.isRegular_of_mem_split {scope : LinkScope} {span part : Span}
    (h : span.IsRegular) (hne : span.text ≠ []) (hpart : part ∈ span.split scope) (offset : Nat) :
    (part.place offset).IsRegular scope := by
  obtain ⟨hkind, hlanguage⟩ := kind_of_mem_split hpart
  constructor
  · change part.kind ∈ part.language.kinds
    rw [hkind, hlanguage]
    exact h.kind_mem
  · change part.kind.isError = true → part.language = .script
    rw [hkind, hlanguage]
    exact Language.eq_script_of_isError h.kind_mem
  · change part.flags.isLink = true → scope.appliesTo part.kind = true
    rw [hkind]
    rcases eq_or_appliesTo_of_mem_split hpart with rfl | hscope
    · intro hlink
      rw [h.isLink_eq_false] at hlink
      cases hlink
    · exact fun _ => hscope
  · change part.flags.isUnknown = true → part.language = .markup ∧ part.kind = .markupTagName ∨
      part.language = .style ∧ part.kind = .regex
    rw [hkind, hlanguage, ← Language.looksUp_iff]
    intro hunknown
    rcases h.flags_eq with hflags | ⟨-, hlooksUp⟩
    · -- A split adds no flag but that of links.
      rcases flags_of_mem_split hpart with hpart | hpart
      all_goals
        rw [hpart, hflags] at hunknown
        cases hunknown
    · exact hlooksUp
  · intro hblank
    have hspan : span.kind = .whitespace := hkind.symm.trans hblank
    rw [eq_of_mem_split_whitespace hpart hspan]
    refine ⟨hne, fun byte hbyte => ?_⟩
    obtain ⟨c, hc, hbyte⟩ := mem_utf8Bytes.1 hbyte
    rw [isBlankByte_of_mem_utf8EncodeChar hbyte]
    exact h.isBlank hspan c hc
  · rintro ⟨byte, hmem, hblank⟩
    obtain ⟨c, hc, hbyte⟩ := mem_utf8Bytes.1 hmem
    rw [isBlankByte_of_mem_utf8EncodeChar hbyte] at hblank
    change part.language.mayHoldBlanks part.kind = true
    rw [hkind, hlanguage]
    cases hnone : span.language.mayHoldBlanks span.kind with
    | true => rfl
    | false =>
      have hother := h.isNonBlank hnone c (text_subset_of_mem_split hpart hc)
      rw [LineLexer.isNonBlank, hblank] at hother
      cases hother

/-- Every token of a line is of a kind of its language and has only the flags and the blanks that
its kind and the scope allow, and no two tokens of blanks stand side by side. -/
theorem tokenize_isRegular (scope : LinkScope) (line : Text) (base : Nat) (state : ResumeState) :
    (∀ token ∈ (tokenize scope line base state).tokens, token.IsRegular scope) ∧
      (tokenize scope line base state).tokens.IsChain fun before after =>
        ¬(before.kind = .whitespace ∧ after.kind = .whitespace) := by
  simp only [tokenize]
  constructor
  · intro token htoken
    obtain ⟨front, span, back, hspans, hpart⟩ := exists_span_of_mem htoken
    have hspan : span ∈ (scan .start state line).spans := by simp [hspans]
    have hmem : token.span ∈ span.split scope := by
      rw [← map_span_placeFrom (base + byteLength (spelled front)) (span.split scope)]
      exact List.mem_map_of_mem hpart
    exact (isRegular_of_mem_scan hspan).isRegular_of_mem_split (text_ne_nil_of_mem_scan hspan) hmem
      token.offset
  · have hchain := Span.isChain_alternates_flatMap_split scope (isChain_scan .start state line)
    rw [← map_span_placeFrom base ((scan .start state line).spans.flatMap (Span.split scope)),
      List.isChain_map] at hchain
    exact hchain

end LineLexer
