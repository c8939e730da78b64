import LineLexer.Proofs.ClosingTag.Clear
import LineLexer.Proofs.Scan.Reach
import LineLexer.Proofs.Text.Search

/-!
# Comments around a text

A host comments out a text with the delimiters that the queries on languages give. The law is that
the lexer then sees one comment and goes on as before (`comment_toggle`). For this the first closing
delimiter must be the one behind the text. A delimiter ends in a character that is nowhere else in
it, so it cannot stand across the border of the text, whatever the text ends in
(`indexOf?_append_self`). The content of an element is also ended by its closing tag, in comments
too and in any letter case; a text with such a tag cannot be commented out.
-/

namespace LineLexer

/-- The kind of the comments that the delimiters of a language make. -/
def Language.commentKind : Language → Kind
  | markup => .markupComment
  | style => .commentMultiline
  | script => .commentEol

/-- The states in which comments open: in text content and in code. -/
def ResumeState.TakesComments : ResumeState → Prop
  | markup .content | style (.code _) | script .code => True
  | _ => False

/-! ## The first closing delimiter -/

section

variable {init text : Text} {last : Char}

/-- A needle that ends in a character of its own does not stand across the border to another one. -/
theorem prefix_of_prefix_append (hlast : last ∉ init) (hne : text ≠ [])
    (h : init ++ [last] <+: text ++ (init ++ [last])) : init ++ [last] <+: text := by
  rcases Nat.lt_or_ge text.length (init ++ [last]).length with hlt | hge
  · -- The last character of the first would stand before the last of the second.
    rw [List.length_append, List.length_singleton] at hlt
    have hpos := List.length_pos_iff.2 hne
    obtain ⟨more, hmore⟩ := h
    have hfirst : (init ++ [last] ++ more)[init.length]? = some last := by simp
    have hsecond : (text ++ (init ++ [last]))[init.length]? = init[init.length - text.length]? := by
      rw [List.getElem?_append_right (by omega), List.getElem?_append_left (by omega)]
    rw [hmore, hsecond] at hfirst
    exact absurd (List.mem_of_getElem? hfirst) hlast
  · exact List.prefix_of_prefix_length_le h (List.prefix_append ..) hge

/-- A needle is found first where it was put behind a text that does not hold it. -/
theorem indexOf?_append_self (hlast : last ∉ init) (h : ¬init ++ [last] <:+: text) :
    indexOf? (init ++ [last]) (text ++ (init ++ [last])) = some text.length := by
  have hfirst : ∀ place < text.length,
      ¬init ++ [last] <+: (text ++ (init ++ [last] ++ [])).drop place := by
    intro place hplace hstarts
    rw [List.append_nil, List.drop_append_of_le_length hplace.le] at hstarts
    have hne : text.drop place ≠ [] := by
      rw [Ne, List.drop_eq_nil_iff]
      omega
    have hheld := (prefix_of_prefix_append hlast hne hstarts).isInfix
    exact h (hheld.trans (List.drop_suffix place text).isInfix)
  have hindex := indexOf?_append [] hfirst
  rwa [List.append_nil] at hindex

end

/-! ## One token -/

/-- A line that the first move takes as one piece is one token. -/
theorem tokenize_of_step {state next : ResumeState} {c : Char} {rest : Text} {kind : Kind}
    {language : Language}
    (hstep : step .start state c rest = ⟨[⟨kind, (c :: rest).length, language, .empty⟩], next⟩)
    (base : Nat) :
    tokenize .off (c :: rest) base state =
      ⟨[⟨kind, language, base, c :: rest, .empty⟩], next⟩ := by
  have hwidth : 0 < (c :: rest).length := Nat.succ_pos _
  rw [tokenize_off, scan_cons_singleton hwidth hstep, List.take_length, List.drop_length, scan_nil]
  rfl

section

variable {text : Text}

/-- Markup takes a text between its delimiters as one comment. -/
theorem Markup.content_comment (h : ¬"-->".toList <:+: text) :
    content '<' ("!--".toList ++ (text ++ "-->".toList)) =
      one .markupComment ('<' :: ("!--".toList ++ (text ++ "-->".toList))).length .content := by
  have hindex : indexOf? "-->".toList (text ++ "-->".toList) = some text.length :=
    indexOf?_append_self (show '>' ∉ ['-', '-'] by decide) h
  have hwidth : widthThrough? "-->".toList (text ++ "-->".toList) = some (text.length + 3) := by
    rw [widthThrough?, hindex]
    rfl
  have hopening : opening ("!--".toList ++ (text ++ "-->".toList)) =
      comment 4 (text ++ "-->".toList) := by
    rw [opening, if_pos]
    · rfl
    · exact List.isPrefixOf_iff_prefix.2 (List.prefix_append ..)
  have hlength : ('<' :: ("!--".toList ++ (text ++ "-->".toList))).length =
      4 + (text.length + 3) := by
    simp
    omega
  rw [content, if_neg (by decide), if_pos rfl, hopening, comment, delimited, hwidth, hlength]

/-- A style sheet takes a text between its delimiters as one comment. -/
theorem Style.contextMove_comment (h : ¬"*/".toList <:+: text)
    (htag : ∀ i, ¬ClosesAt .style ((text ++ "*/".toList).drop i)) (context : StyleContext) :
    contextMove context '/' ('*' :: (text ++ "*/".toList)) =
      code .commentMultiline ('/' :: '*' :: (text ++ "*/".toList)).length context := by
  have hindex : indexOf? "*/".toList (text ++ "*/".toList) = some text.length :=
    indexOf?_append_self (show '/' ∉ ['*'] by decide) h
  have hnone : closingTagIndex? styleTag (text ++ "*/".toList) = none := by
    rw [← Language.closingTag_style]
    exact closingTagIndex?_eq_none_iff.2 htag
  have hwidth : commentWidth? styleTag (text ++ "*/".toList) = some (text.length + 2) := by
    rw [commentWidth?, hindex, hnone]
  have hbody : contextMove context '/' ('*' :: (text ++ "*/".toList)) =
      comment context 2 (text ++ "*/".toList) := rfl
  have hlength : ('/' :: '*' :: (text ++ "*/".toList)).length = 2 + (text.length + 2) := by
    simp
    omega
  rw [hbody, comment, hwidth, hlength]

/-- A script takes a text behind its mark as one comment. -/
theorem Script.code_comment (htag : ∀ i, ¬ClosesAt .script (text.drop i)) (regexAllowed : Bool) :
    code regexAllowed '/' ('/' :: text) = one .commentEol ('/' :: '/' :: text).length .code := by
  have hnone : closingTagIndex? scriptTag ('/' :: '/' :: text) = none := by
    rw [← Language.closingTag_script, closingTagIndex?_eq_none_iff]
    -- The mark goes before the text, and no closing tag starts with a slash.
    rintro (_ | _ | i)
    · exact not_closesAt_of_ne (by decide) _ _
    · exact not_closesAt_of_ne (by decide) _ _
    · exact htag i
  have hmark : code regexAllowed '/' ('/' :: text) = lineComment ('/' :: '/' :: text) := rfl
  rw [hmark, lineComment, hnone]
  rfl

end

/-! ## Comments -/

/-- A text without the closing delimiter and, in an element, without the closing tag is one comment
between the delimiters of the language, and so is one behind its mark. The lexer goes on as
before. -/
theorem comment_toggle {state : ResumeState} (hstate : state.TakesComments) (text : Text)
    (base : Nat) :
    (∀ opener closer, state.language.blockComment? = some (opener, closer) →
      ¬closer <:+: text →
      (state.language ≠ .markup →
        ∀ i, ¬ClosesAt state.language ((opener ++ text ++ closer).drop i)) →
      tokenize .off (opener ++ text ++ closer) base state =
        ⟨[⟨state.language.commentKind, state.language, base, opener ++ text ++ closer, .empty⟩],
          state⟩) ∧
    (∀ mark, state.language.lineComment? = some mark →
      (∀ i, ¬ClosesAt state.language (text.drop i)) →
      tokenize .off (mark ++ text) base state =
        ⟨[⟨state.language.commentKind, state.language, base, mark ++ text, .empty⟩], state⟩) := by
  unfold ResumeState.TakesComments at hstate
  -- Each language has one form of comment: markup and style sheets have blocks, scripts have lines.
  split at hstate
  · refine ⟨?_, nofun⟩
    rintro opener closer ⟨⟩ hcloser -
    have hstep : step .start (.markup .content) '<' ("!--".toList ++ (text ++ "-->".toList)) = _ :=
      Markup.content_comment hcloser
    exact tokenize_of_step hstep base
  · refine ⟨?_, nofun⟩
    rintro opener closer ⟨⟩ hcloser htag
    -- The search for the closing tag starts behind the opening delimiter.
    have hbody := fun i => htag nofun (i + 2)
    have hstep : ∀ context, step .start (.style (.code context)) '/'
        ('*' :: (text ++ "*/".toList)) = _ := Style.contextMove_comment hcloser hbody
    exact tokenize_of_step (hstep _) base
  · refine ⟨nofun, ?_⟩
    rintro mark ⟨⟩ htag
    have hstep : step .start (.script .code) '/' ('/' :: text) = _ := Script.code_comment htag true
    exact tokenize_of_step hstep base
  · exact hstate.elim

/-- In a selector a text that ends like the closing delimiter goes on is commented out. -/
theorem comment_toggle_of_selector :
    let state := ResumeState.style (.code .selector)
    let whole := "/*/*/".toList
    state.TakesComments ∧ state.language.blockComment? = some ("/*".toList, "*/".toList) ∧
      ¬"*/".toList <:+: "/".toList ∧
      (state.language ≠ .markup → ∀ i, ¬ClosesAt state.language
        (("/*".toList ++ "/".toList ++ "*/".toList).drop i)) ∧
      tokenize .off whole 0 state = ⟨[⟨.commentMultiline, .style, 0, whole, .empty⟩], state⟩ := by
  intro state whole
  have hstate : state.TakesComments := trivial
  have hcloser : ¬"*/".toList <:+: "/".toList := by
    decide
  have htag : state.language ≠ .markup → ∀ i, ¬ClosesAt state.language
      (("/*".toList ++ "/".toList ++ "*/".toList).drop i) :=
    fun _ => closingTagIndex?_eq_none_iff.1 (by decide)
  exact ⟨hstate, rfl, hcloser, htag, (comment_toggle hstate "/".toList 0).1 _ _ rfl hcloser htag⟩

/-- A closing tag in capitals ends a comment as well, so a text with it is not commented out. -/
theorem exists_not_comment_toggle :
    (∃ (context : StyleContext) (text : Text),
      ¬"*/".toList <:+: text ∧ ¬"</style".toList <:+: text ∧
        ∀ token, tokenize .off ("/*".toList ++ text ++ "*/".toList) 0 (.style (.code context)) ≠
          ⟨[token], .style (.code context)⟩) ∧
    ∃ text : Text, ¬"</script".toList <:+: text ∧
      ∀ token, tokenize .off ("//".toList ++ text) 0 (.script .code) ≠
        ⟨[token], .script .code⟩ := by
  have hstyle : (tokenize .off ("/*".toList ++ "</STYLE>".toList ++ "*/".toList) 0
      (.style (.code .selector))).tokens.length ≠ 1 := by
    decide +kernel
  have hscript : (tokenize .off ("//".toList ++ "</SCRIPT>".toList) 0
      (.script .code)).tokens.length ≠ 1 := by
    decide +kernel
  refine ⟨⟨.selector, "</STYLE>".toList, by decide +kernel, by decide +kernel, fun token h => ?_⟩,
    "</SCRIPT>".toList, by decide +kernel, fun token h => ?_⟩
  · exact hstyle (congrArg (fun lexed => lexed.tokens.length) h)
  · exact hscript (congrArg (fun lexed => lexed.tokens.length) h)

end LineLexer
