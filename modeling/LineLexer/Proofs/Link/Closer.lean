import LineLexer.Proofs.Kind
import LineLexer.Proofs.Link.Decoration
import Mathlib.Data.List.DropRight

/-!
# Links and closing delimiters

A link is looked for in the text of a comment or literal alone, without a thought of the delimiter
at its end. Most delimiters hold no character that a link may end in, so the delimiter comes after
the link whole. The one of block comments is different: it is made of link characters and ends in a
slash, so a link that goes on right up to it takes it in. `closer_after_link_iff` says that this is
the only exception, and `exists_link_over_closer` is a line where it arises.
-/

namespace LineLexer

/-! ## What a link is -/

namespace Link

/-- The first link of a text is the link that starts the text from its place on. -/
theorem width?_of_findFrom? {free : Bool} {text : Text} {start width : Nat}
    (h : findFrom? free text = some (start, width)) : width? (text.drop start) = some width := by
  induction text generalizing free start with
  | nil => cases h
  | cons c rest ih =>
    unfold findFrom? at h
    split at h
    next hwidth =>
      cases h
      split at hwidth
      · exact hwidth
      · cases hwidth
    next =>
      obtain ⟨found, hfound, heq⟩ := Option.map_eq_some_iff.1 h
      obtain ⟨rfl, rfl⟩ := Prod.mk.inj heq
      exact ih hfound

section

variable {text : Text} {width : Nat}

/-- A link is as wide as its run of link characters without the punctuation at its end, and it is
wider than any mark. -/
theorem width?_eq_some (h : width? text = some width) :
    width = ((text.takeWhile isLinkChar).rdropWhile fun c => !isLinkEnd c).length ∧ 4 < width := by
  have hmarks : ∀ mark ∈ marks, 4 ≤ mark.length := by decide
  unfold width? at h
  split at h
  · cases h
  next mark hmark =>
    have hle := hmarks mark (List.mem_of_find?_eq_some hmark)
    dsimp only at h
    split at h
    next hlt =>
      cases h
      exact ⟨by rw [trimmedWidth, List.rdropWhile, List.length_reverse], by omega⟩
    next => cases h

/-- A link is its run of link characters without the punctuation at its end. -/
theorem take_of_width? (h : width? text = some width) :
    text.take width = (text.takeWhile isLinkChar).rdropWhile fun c => !isLinkEnd c := by
  have hprefix : ((text.takeWhile isLinkChar).rdropWhile fun c => !isLinkEnd c) <+: text :=
    (List.rdropWhile_prefix _ _).trans (List.takeWhile_prefix _)
  rw [(width?_eq_some h).1, ← List.prefix_iff_eq_take.1 hprefix]

/-- A link is of link characters. -/
theorem isLinkChar_of_width? (h : width? text = some width) :
    ∀ c ∈ text.take width, isLinkChar c = true := by
  rw [take_of_width? h]
  intro c hc
  exact List.all_eq_true.1 List.all_takeWhile c ((List.rdropWhile_prefix _ _).subset hc)

/-- A link ends in a character that it may end in. -/
theorem exists_getLast?_of_width? (h : width? text = some width) :
    ∃ c, (text.take width).getLast? = some c ∧ isLinkEnd c = true := by
  have hne : ((text.takeWhile isLinkChar).rdropWhile fun c => !isLinkEnd c) ≠ [] := by
    have hwidth := width?_eq_some h
    rw [← List.length_pos_iff]
    omega
  refine ⟨_, ?_, by simpa using List.rdropWhile_last_not _ _ hne⟩
  rw [take_of_width? h, List.getLast?_eq_some_getLast hne]

/-- A text of link characters that ends as a link may is all link. -/
theorem width?_eq_length (h : width? text = some width)
    (hall : ∀ c ∈ text, isLinkChar c = true) (hend : ∀ c ∈ text.getLast?, isLinkEnd c = true) :
    width = text.length := by
  have hrun : text.takeWhile isLinkChar = text := List.takeWhile_eq_self_iff.2 hall
  have htrim : (text.rdropWhile fun c => !isLinkEnd c) = text := by
    rw [List.rdropWhile_eq_self_iff]
    intro hne
    have hlast := hend (text.getLast hne) (List.getLast?_eq_some_getLast hne)
    simp [hlast]
  rw [(width?_eq_some h).1, hrun, htrim]

end

end Link

/-! ## Delimiters -/

/-- The closing delimiters of the constructs that tokens of a kind are. -/
def Kind.closers : Kind → List Text
  | .commentMultiline => ["*/".toList]
  | .markupComment => ["-->".toList]
  | .literalStringDouble => [['"']]
  | .literalChar | .errorChar => [['\'']]
  | .literalBackquote => [['`']]
  | .errorString => [['"'], ['`']]
  | .markupTagAttributeValue => [['"'], ['\'']]
  | _ => []

/-- Of the delimiters only the one of block comments holds a character that a link may end in. -/
theorem Kind.closers_cases {kind : Kind} {closer : Text} (h : closer ∈ kind.closers) :
    closer = "*/".toList ∨ closer.any Link.isLinkEnd = false := by
  revert closer
  cases kind <;> decide

section

variable {before link after closer : Text}

/-- A delimiter at the end of a text does not reach back into a part whose last character it does
not hold. -/
theorem suffix_of_getLast?_not_mem {c : Char} (hcloser : closer <:+ before ++ link ++ after)
    (hlast : link.getLast? = some c) (hc : c ∉ closer) : closer <:+ after := by
  rcases List.suffix_or_suffix_of_suffix hcloser (List.suffix_append _ after) with
    h | ⟨rest, hrest⟩
  · exact h
  · -- What of the delimiter stands before would end with the character.
    subst hrest
    obtain ⟨front, hfront⟩ := hcloser
    rw [← List.append_assoc] at hfront
    have hlink := congrArg List.getLast? (List.append_cancel_right hfront)
    rw [List.getLast?_append, List.getLast?_append, hlast] at hlink
    cases hr : rest.getLast? with
    | none =>
      rw [List.getLast?_eq_none_iff.1 hr]
      exact List.suffix_refl after
    | some d =>
      rw [hr] at hlink
      obtain rfl : d = c := Option.some.inj hlink
      exact absurd (List.mem_append_left after (List.mem_of_getLast? hr)) hc

/-- A delimiter at the end of a text does not reach out of a part with a character that it does not
hold. -/
theorem suffix_of_mem_of_not_mem {c : Char} (hcloser : closer <:+ before ++ link ++ after)
    (hmem : c ∈ after) (hc : c ∉ closer) : closer <:+ after :=
  (List.suffix_or_suffix_of_suffix hcloser (List.suffix_append _ after)).resolve_right
    fun h => hc (h.subset hmem)

/-- A link that goes on over link characters up to the delimiter of a block comment takes it in. -/
theorem link_takes_closer (hwidth : Link.width? (link ++ after) = some link.length)
    (hcloser : "*/".toList <:+ before ++ link ++ after)
    (hall : ∀ c ∈ link ++ after, Link.isLinkChar c = true) :
    after = [] ∧ "*/".toList <:+ link := by
  have hwide := (Link.width?_eq_some hwidth).2
  have hne : link ++ after ≠ [] := by
    rw [← List.length_pos_iff, List.length_append]
    omega
  have hslash : (link ++ after).getLast? = some '/' := by
    obtain ⟨front, hfront⟩ := hcloser
    calc (link ++ after).getLast?
        = (before ++ (link ++ after)).getLast? := (List.getLast?_append_of_ne_nil _ hne).symm
      _ = (front ++ "*/".toList).getLast? := by rw [hfront, List.append_assoc]
      _ = some '/' := List.getLast?_append_of_ne_nil _ (by decide)
  -- A slash is a character that a link may end in, so nothing is trimmed from the run.
  have hlength := Link.width?_eq_length hwidth hall fun c hc => by
    rw [hslash] at hc
    obtain rfl := Option.some.inj hc
    decide
  obtain rfl : after = [] := by
    rw [List.length_append] at hlength
    exact List.length_eq_zero_iff.1 (by omega)
  rw [List.append_nil] at hcloser
  refine ⟨rfl, List.suffix_of_suffix_length_le hcloser (List.suffix_append before link) ?_⟩
  exact Nat.le_trans (by decide) (Nat.le_of_lt hwide)

/-- A delimiter at the end of a text comes after the link whole, unless it is the one of block
comments and link characters lead from the link right up to it; then it is within the link. -/
theorem closer_suffix_cases {kind : Kind} (hmem : closer ∈ kind.closers)
    (hfound : Link.find? (before ++ link ++ after) = some (before.length, link.length))
    (hcloser : closer <:+ before ++ link ++ after) :
    (closer <:+ after ∧
        ¬(closer = "*/".toList ∧ ∀ c ∈ link ++ after, Link.isLinkChar c = true)) ∨
      (after = [] ∧ closer <:+ link ∧
        closer = "*/".toList ∧ ∀ c ∈ link ++ after, Link.isLinkChar c = true) := by
  have hwidth : Link.width? (link ++ after) = some link.length := by
    have h := Link.width?_of_findFrom? hfound
    rwa [List.append_assoc, List.drop_left] at h
  have hlink := Link.isLinkChar_of_width? hwidth
  obtain ⟨last, hlast, hend⟩ := Link.exists_getLast?_of_width? hwidth
  rw [List.take_left] at hlink hlast
  rcases Kind.closers_cases hmem with rfl | hnone
  · by_cases hall : ∀ c ∈ link ++ after, Link.isLinkChar c = true
    · obtain ⟨hafter, hlink⟩ := link_takes_closer hwidth hcloser hall
      exact .inr ⟨hafter, hlink, rfl, hall⟩
    · refine .inl ⟨?_, fun h => hall h.2⟩
      -- The character that stops the run comes after the link, and not in the delimiter.
      obtain ⟨c, hc⟩ := Classical.not_forall.1 hall
      obtain ⟨hc, hstop⟩ := Classical.not_imp.1 hc
      have hafter : c ∈ after := (List.mem_append.1 hc).resolve_left fun h => hstop (hlink c h)
      refine suffix_of_mem_of_not_mem hcloser hafter fun h => hstop ?_
      have hchars : "*/".toList.all Link.isLinkChar = true := by decide
      exact List.all_eq_true.1 hchars c h
  · refine .inl ⟨suffix_of_getLast?_not_mem hcloser hlast fun h => ?_, fun h => ?_⟩
    · exact List.any_eq_false.1 hnone last h hend
    · obtain ⟨rfl, -⟩ := h
      exact absurd hnone (by decide)

end

/-! ## Tokens around a link -/

/-- A token with a link in it: the link and the part after it are parts of the token, with a text
before them. -/
structure Token.HasLink (whole : Token) (before : Text) (link suffix : Token) : Prop where
  text_eq : whole.text = before ++ link.text ++ suffix.text
  link_eq : link =
    whole.part (byteLength before) link.text (whole.flags.set Flags.linkBit)
  suffix_eq : suffix =
    whole.part (byteLength before + byteLength link.text) suffix.text whole.flags

/-- Of the parts of a token around a link, the link is the one that is flagged, and one part comes
after it. -/
theorem Token.hasLink_of_around {whole link : Token} {before text after : Text}
    {front back : List Token} (htext : whole.text = before ++ text ++ after)
    (h : whole.around before text after = front ++ link :: back) (hwhole : whole.isLink = false)
    (hlink : link.isLink = true) :
    ∃ suffix, back = [suffix] ∧ whole.HasLink before link suffix ∧ link.text = text ∧
      suffix.text = after := by
  have hplain : ∀ start text, (whole.part start text whole.flags).isLink ≠ true := by
    intro start text
    rw [Token.isLink, Token.part, show whole.flags.isLink = false from hwhole]
    decide
  unfold around at h
  rcases append_eq_append_cons h with ⟨mid, -, hmid⟩ | ⟨mid, hlead, -⟩
  · rcases mid with _ | ⟨first, _ | ⟨second, mid⟩⟩
    · obtain ⟨rfl, rfl⟩ := List.cons.inj hmid
      exact ⟨_, rfl, ⟨htext, rfl, rfl⟩, rfl, rfl⟩
    · obtain ⟨-, hmid⟩ := List.cons.inj hmid
      obtain ⟨rfl, -⟩ := List.cons.inj hmid
      exact absurd hlink (hplain _ _)
    · simp at hmid
  · -- The part before the link is no link either.
    have hmem : link ∈ if before = [] then [] else [whole.part 0 before whole.flags] := by
      simp [hlead]
    split at hmem
    · cases hmem
    · rw [List.mem_singleton.1 hmem] at hlink
      exact absurd hlink (hplain _ _)

/-- A link among the tokens of spans is in the token of one of them, and is the first link of its
text. -/
theorem exists_hasLink_of_placeFrom {scope : LinkScope} {spans : List Span} {offset : Nat}
    {front back : List Token} {link : Token} (hspans : ∀ span ∈ spans, span.flags.isLink = false)
    (h : placeFrom offset (spans.flatMap (Span.split scope)) = front ++ link :: back)
    (hlink : link.isLink = true) :
    ∃ whole ∈ placeFrom offset spans, ∃ before suffix later,
      back = suffix :: later ∧ whole.HasLink before link suffix ∧
        Link.find? (before ++ link.text ++ suffix.text) =
          some (before.length, link.text.length) := by
  induction spans generalizing offset front with
  | nil => simp [placeFrom] at h
  | cons span spans ih =>
    rw [List.flatMap_cons, placeFrom_append, Span.spelled_split] at h
    rcases append_eq_append_cons h with ⟨mid, -, hmid⟩ | ⟨mid, hparts, hback⟩
    · obtain ⟨whole, hwhole, hrest⟩ := ih (fun other h => hspans other (by simp [h])) hmid
      exact ⟨whole, List.mem_cons_of_mem _ hwhole, hrest⟩
    · have hplain : (span.place offset).isLink = false := hspans span List.mem_cons_self
      rcases placeFrom_split scope span offset with
        hsame | ⟨before, text, after, -, htext, -, hfound, haround⟩
      · -- A span that is not split is no link.
        have hmem : link ∈ placeFrom offset (span.split scope) := by simp [hparts]
        rw [hsame, List.mem_singleton] at hmem
        rw [hmem, hplain] at hlink
        cases hlink
      · rw [haround] at hparts
        obtain ⟨suffix, rfl, hhas, rfl, rfl⟩ := Token.hasLink_of_around htext hparts hplain hlink
        rw [htext] at hfound
        exact ⟨span.place offset, List.mem_cons_self, before, suffix, _, hback, hhas, hfound⟩

/-- A link is in a token that the line has without links, and directly after it comes the part of
that token after the link. A delimiter at the end of the token is in that part whole, unless it is
the one of block comments and only link characters stand from the start of the link to the end; then
the link takes the delimiter in and nothing is left after it. -/
theorem closer_after_link_iff {scope : LinkScope} {line : Text} {base : Nat} {state : ResumeState}
    {front back : List Token} {link : Token}
    (htokens : (tokenize scope line base state).tokens = front ++ link :: back)
    (hlink : link.isLink = true) :
    ∃ whole ∈ (tokenize .off line base state).tokens, ∃ before suffix later,
      back = suffix :: later ∧ whole.HasLink before link suffix ∧
      ∀ closer ∈ whole.kind.closers, closer <:+ whole.text →
        (closer <:+ suffix.text ↔
          ¬(closer = "*/".toList ∧ ∀ c ∈ link.text ++ suffix.text, Link.isLinkChar c = true)) ∧
        (closer <:+ suffix.text ∨ suffix.text = [] ∧ closer <:+ link.text) := by
  have hspans : ∀ span ∈ (scan .start state line).spans, span.flags.isLink = false :=
    fun span hspan => (isRegular_of_mem_scan hspan).isLink_eq_false
  obtain ⟨whole, hwhole, before, suffix, later, hback, hhas, hfound⟩ :=
    exists_hasLink_of_placeFrom hspans htokens hlink
  rw [tokenize_off]
  refine ⟨whole, hwhole, before, suffix, later, hback, hhas, ?_⟩
  intro closer hcloser hsuffix
  rw [hhas.text_eq] at hsuffix
  rcases closer_suffix_cases hcloser hfound hsuffix with ⟨hafter, hnot⟩ | ⟨hnil, hwithin, hall⟩
  · exact ⟨iff_of_true hafter hnot, .inl hafter⟩
  · refine ⟨iff_of_false ?_ (not_not_intro hall), .inr ⟨hnil, hwithin⟩⟩
    rw [hnil, hall.1]
    decide

/-- A quote that stands directly behind a link is left to the part after it. -/
theorem closer_after_link_iff_of_quote :
    let line := "\"www.a.b\"".toList
    let lexed := tokenize .commentsAndStrings line 0 (.script .code)
    ∃ front link back, lexed.tokens = front ++ link :: back ∧ link.isLink = true ∧
      ∃ whole ∈ (tokenize .off line 0 (.script .code)).tokens, ∃ before suffix later,
        back = suffix :: later ∧ whole.HasLink before link suffix ∧
        ∀ closer ∈ whole.kind.closers, closer <:+ whole.text →
          (closer <:+ suffix.text ↔
            ¬(closer = "*/".toList ∧
              ∀ c ∈ link.text ++ suffix.text, Link.isLinkChar c = true)) ∧
          (closer <:+ suffix.text ∨ suffix.text = [] ∧ closer <:+ link.text) := by
  intro line lexed
  have htokens : lexed.tokens =
      [⟨.literalStringDouble, .script, 0, ['"'], .empty⟩] ++
        ⟨.literalStringDouble, .script, 1, "www.a.b".toList, Flags.empty.set Flags.linkBit⟩ ::
        [⟨.literalStringDouble, .script, 8, ['"'], .empty⟩] := by
    decide +kernel
  exact ⟨_, _, _, htokens, by decide, closer_after_link_iff htokens (by decide)⟩

/-- A link that stands directly before the delimiter of a block comment takes it in: the comment is
closed, and the part after the link is empty. -/
theorem exists_link_over_closer :
    let lexed := tokenize .comments "/* http://a*/".toList 0 (.style (.code .selector))
    ∃ before link after, lexed.tokens = [before, link, after] ∧
      lexed.finish = .style (.code .selector) ∧ link.isLink = true ∧
      "*/".toList ∈ link.kind.closers ∧ "*/".toList <:+ link.text ∧
      ¬"*/".toList <:+ after.text := by
  intro lexed
  have htokens : lexed.tokens =
      [⟨.commentMultiline, .style, 0, "/* ".toList, .empty⟩,
        ⟨.commentMultiline, .style, 3, "http://a*/".toList, Flags.empty.set Flags.linkBit⟩,
        ⟨.commentMultiline, .style, 13, [], .empty⟩] := by
    decide +kernel
  refine ⟨_, _, _, htokens, ?_, ?_, ?_, ?_, ?_⟩
  · decide +kernel
  · decide
  · decide
  · decide
  · decide

end LineLexer
