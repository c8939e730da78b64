import LineLexer.Grammar.Markup
import LineLexer.Proofs.Bytewise.Measure

/-!
# Measures at a line break

What a grammar measures at the head of a text can only see the end of the text or, where another
line is joined to it, a line break. Runs that do not go over a line break and texts without one are
measured alike in both (`runLength_join`, `isPrefixOf_join`). A run of blanks that reaches the end
goes on behind the break (`runLength_isBlank_join`), and so does a search for what ends a construct
(`GoesOver`).
-/

namespace LineLexer

section

variable {text next : Text}

/-- The first character is the same, unless there is none. -/
theorem head?_join_eq_some {c : Char} (h : c ≠ '\n') :
    (text ++ '\n' :: next).head? = some c ↔ text.head? = some c := by
  cases text with
  | nil => simpa using h.symm
  | cons d text => rfl

/-- A test that a line break fails holds of the first character of both. -/
theorem any_head?_join {p : Char → Bool} (h : p '\n' = false) :
    (text ++ '\n' :: next).head?.any p = text.head?.any p := by
  cases text with
  | nil => simpa using h
  | cons d text => rfl

/-- A run that a line break ends is the same. -/
theorem takeWhile_join {p : Char → Bool} (h : p '\n' = false) :
    (text ++ '\n' :: next).takeWhile p = text.takeWhile p := by
  induction text with
  | nil => simp [h]
  | cons c text ih => simp only [List.cons_append, List.takeWhile_cons, ih]

/-- A run that a line break ends is as wide. -/
theorem runLength_join {p : Char → Bool} (h : p '\n' = false) :
    runLength p (text ++ '\n' :: next) = runLength p text := by
  rw [runLength, takeWhile_join h, runLength]

/-- A run of blanks is as wide, or it reaches the line break and goes on behind it. -/
theorem runLength_isBlank_join (text next : Text) :
    runLength isBlank text = text.length ∧
        runLength isBlank (text ++ '\n' :: next) = text.length + (runLength isBlank next + 1) ∨
      runLength isBlank (text ++ '\n' :: next) = runLength isBlank text := by
  induction text with
  | nil => exact .inl ⟨rfl, by simp [runLength, isBlank]⟩
  | cons c text ih =>
    cases hc : isBlank c with
    | false => exact .inr (by simp [runLength, hc])
    | true =>
      have hcons : ∀ rest, runLength isBlank (c :: rest) = runLength isBlank rest + 1 := by
        intro rest
        simp [runLength, hc]
      rw [List.cons_append, hcons, hcons, List.length_cons]
      omega

/-- A needle without a line break starts both or neither. -/
theorem isPrefixOf_join (needle : Text) (h : '\n' ∉ needle) :
    needle.isPrefixOf (text ++ '\n' :: next) = needle.isPrefixOf text := by
  induction needle generalizing text with
  | nil => simp
  | cons d needle ih =>
    rw [List.mem_cons, not_or] at h
    cases text with
    | nil => simp [List.isPrefixOf, Ne.symm h.1]
    | cons c text => simp [List.isPrefixOf, ih h.2]

/-- A head without a line break starts both or neither, letter case aside. -/
theorem startsWithFolded_join {head : Text} (h : '\n' ∉ foldCase head) :
    startsWithFolded head (text ++ '\n' :: next) = startsWithFolded head text := by
  rw [Bool.eq_iff_iff, startsWithFolded_iff, startsWithFolded_iff]
  constructor
  · rintro ⟨first, rest, hsplit, hlen, hfold⟩
    rcases List.append_eq_append_iff.1 hsplit with ⟨mid, rfl, hrest⟩ | ⟨mid, rfl, -⟩
    · cases mid with
      | nil => exact ⟨text, [], by simp, by simpa using hlen, by simpa using hfold⟩
      | cons c mid =>
        -- The head would go over the line break.
        obtain rfl : '\n' = c := (List.cons.inj hrest).1
        refine absurd ?_ h
        rw [← hfold, foldCase, List.mem_map]
        exact ⟨'\n', by simp, by decide⟩
    · exact ⟨first, mid, rfl, hlen, hfold⟩
  · rintro ⟨first, rest, rfl, hlen, hfold⟩
    exact ⟨first, rest ++ '\n' :: next, by simp, hlen, hfold⟩

/-- A closing tag starts both or neither: a line break is no character of a name. -/
theorem atClosingTag_join {tag : Text} (h : '\n' ∉ foldCase tag) (text next : Text) :
    atClosingTag tag (text ++ '\n' :: next) = atClosingTag tag text := by
  rw [atClosingTag, startsWithFolded_join h, atClosingTag]
  cases hstarts : startsWithFolded tag text with
  | false => rfl
  | true =>
    obtain ⟨first, rest, rfl, hlen, -⟩ := startsWithFolded_iff.1 hstarts
    rw [List.append_assoc, ← hlen, List.drop_left, List.drop_left,
      any_head?_join (p := isTagNameChar) (by decide)]

/-- What is left of a text after some of its characters is joined to the same line. -/
theorem drop_join {n : Nat} (h : n ≤ text.length) :
    (text ++ '\n' :: next).drop n = text.drop n ++ '\n' :: next :=
  List.drop_append_of_le_length h

/-! ## Measures that go over a break -/

/-- A measure of bodies to which the break before a line is a character like any other: it measures
what it did without the line, or else goes on in the line. -/
structure GoesOver (measure : Text → Option Nat) (next : Text) : Prop where
  nil : measure [] = none
  le : ∀ {text width}, measure text = some width → width ≤ text.length
  join : ∀ text, measure (text ++ '\n' :: next) =
    (measure text).or ((measure next).map (· + (text.length + 1)))

/-- What is measured of a break and a line is one character more than what is measured of the
line. -/
theorem GoesOver.cons {measure : Text → Option Nat} (h : GoesOver measure next) :
    measure ('\n' :: next) = (measure next).map (· + 1) := by
  have hjoin := h.join []
  rwa [List.nil_append, h.nil, Option.none_or] at hjoin

/-- A search that a line break cannot take part in goes over it. -/
theorem IsSearch.goesOver {search : Text → Option Nat} {test : Text → Bool}
    (h : IsSearch search test) (hnil : test [] = false)
    (htest : ∀ text, test (text ++ '\n' :: next) = test text) : GoesOver search next where
  nil := h.nil
  le := h.le
  join text := by
    induction text with
    | nil =>
      have hbreak : test ('\n' :: next) = false := (htest []).trans hnil
      rw [List.nil_append, h.cons, hbreak, h.nil]
      rfl
    | cons c text ih =>
      have hc : test (c :: (text ++ '\n' :: next)) = test (c :: text) := htest (c :: text)
      rw [List.cons_append, h.cons, h.cons, hc, ih]
      split
      · rfl
      · cases search text <;> simp [Function.comp_def, Nat.add_assoc]

/-- The search for a needle without a line break goes over the break. -/
theorem goesOver_indexOf? {needle : Text} (hne : needle ≠ []) (h : '\n' ∉ needle) (next : Text) :
    GoesOver (indexOf? needle) next := by
  refine (isSearch_indexOf? hne).goesOver ?_ fun _ => isPrefixOf_join needle h
  cases needle with
  | nil => exact absurd rfl hne
  | cons c needle => rfl

/-- What goes through a delimiter goes over the break. -/
theorem goesOver_widthThrough? {delimiter : Text} (hne : delimiter ≠ []) (h : '\n' ∉ delimiter)
    (next : Text) : GoesOver (widthThrough? delimiter) next where
  nil := by rw [widthThrough?, (goesOver_indexOf? hne h next).nil, Option.map_none]
  le hwidth := by
    obtain ⟨i, hi, rfl⟩ := Option.map_eq_some_iff.1 hwidth
    have hprefix := (prefix_drop_of_indexOf? hi).length_le
    have hle := (isSearch_indexOf? hne).le hi
    rw [List.length_drop] at hprefix
    omega
  join text := by
    rw [widthThrough?, (goesOver_indexOf? hne h next).join, widthThrough?, widthThrough?]
    cases indexOf? delimiter text <;>
      simp [Function.comp_def, Nat.add_right_comm]

/-- The search for a closing tag goes over the break. -/
theorem goesOver_closingTagIndex? {tag : Text} (h : '\n' ∉ foldCase tag) (next : Text) :
    GoesOver (closingTagIndex? tag) next := by
  refine (isSearch_closingTagIndex? tag).goesOver rfl fun text => ?_
  have hbracket : ((text ++ '\n' :: next).head? == some '<') = (text.head? == some '<') := by
    rw [Bool.eq_iff_iff, beq_iff_eq, beq_iff_eq, head?_join_eq_some (by decide)]
  rw [hbracket, atClosingTag_join h]

/-- The body of a comment goes over the break. -/
theorem goesOver_commentWidth? {tag : Text} (h : '\n' ∉ foldCase tag) (next : Text) :
    GoesOver (commentWidth? tag) next := by
  have hdelimiter : GoesOver (indexOf? "*/".toList) next :=
    goesOver_indexOf? (by decide) (by decide) next
  have hthrough : GoesOver (widthThrough? "*/".toList) next :=
    goesOver_widthThrough? (by decide) (by decide) next
  have htag := goesOver_closingTagIndex? h next
  have hle : ∀ {text i}, indexOf? "*/".toList text = some i → i + 2 ≤ text.length :=
    fun hi => hthrough.le (by rw [widthThrough?, hi]; rfl)
  constructor
  case nil => rw [commentWidth?, hdelimiter.nil, htag.nil]
  case le =>
    intro text width hwidth
    unfold commentWidth? at hwidth
    split at hwidth
    next i j hi hj =>
      have := hle hi
      have := htag.le hj
      split at hwidth <;> cases hwidth <;> omega
    next i hi hj =>
      cases hwidth
      exact hle hi
    next j hi hj =>
      cases hwidth
      exact htag.le hj
    next => cases hwidth
  case join =>
    intro text
    unfold commentWidth?
    rw [hdelimiter.join, htag.join]
    -- What is found in the text comes before what is found behind the break.
    cases hi : indexOf? "*/".toList text with
    | some i =>
      have := hle hi
      cases closingTagIndex? tag text with
      | some j => rfl
      | none =>
        cases closingTagIndex? tag next with
        | none => rfl
        | some k =>
          have hbehind : ¬k + (text.length + 1) < i := by omega
          simp [hbehind]
    | none =>
      cases hj : closingTagIndex? tag text with
      | some j =>
        have := htag.le hj
        cases indexOf? "*/".toList next with
        | none => rfl
        | some k =>
          have hbefore : j < k + (text.length + 1) := by omega
          simp [hbefore]
      | none =>
        cases indexOf? "*/".toList next with
        | none => cases closingTagIndex? tag next <;> rfl
        | some i =>
          cases closingTagIndex? tag next with
          | none => simp [Nat.add_right_comm]
          | some j =>
            simp only [Option.none_or, Option.map_some, Nat.add_lt_add_iff_right]
            split <;> simp [Nat.add_right_comm]

/-- A character at the head of what is left of a text lies in the text. -/
theorem lt_of_head?_drop {text : Text} {n : Nat} {c : Char} (h : (text.drop n).head? = some c) :
    n < text.length := by
  rw [List.head?_drop] at h
  exact (List.getElem?_eq_some_iff.1 h).1

/-! ## Entity references -/

namespace Markup

/-- A numeric entity reference lies in the text. -/
theorem numericEntityWidth?_le {p : Char → Bool} {lead width : Nat} {text : Text}
    (h : numericEntityWidth? p lead text = some width) : width ≤ lead + text.length := by
  have hle := runLength_le p text
  simp only [numericEntityWidth?] at h
  split at h
  · cases h
  split at h <;> cases h
  next hend =>
    have := lt_of_head?_drop hend
    omega
  · omega

/-- An entity reference lies in the text. -/
theorem entityWidth?_le {text : Text} {width : Nat} (h : entityWidth? text = some width) :
    width ≤ text.length + 1 := by
  unfold entityWidth? at h
  split at h
  next hsharp =>
    obtain ⟨text, rfl⟩ := List.head?_eq_some_iff.1 hsharp
    split at h
    next hmark =>
      obtain ⟨mark, text, rfl⟩ : ∃ mark tail, text = mark :: tail := by
        rcases hmark with h | h <;> exact ⟨_, List.head?_eq_some_iff.1 h⟩
      have := numericEntityWidth?_le h
      simp only [List.drop_succ_cons, List.drop_zero, List.length_cons] at this ⊢
      omega
    next =>
      have := numericEntityWidth?_le h
      simp only [List.drop_succ_cons, List.drop_zero, List.length_cons] at this ⊢
      omega
  next =>
    simp only [namedEntityWidth?, Bool.and_eq_true, beq_iff_eq] at h
    split at h <;> cases h
    next hend =>
      have := lt_of_head?_drop hend.2
      omega

/-- A numeric entity reference is the same. -/
theorem numericEntityWidth?_join {p : Char → Bool} (h : p '\n' = false) (lead : Nat) :
    numericEntityWidth? p lead (text ++ '\n' :: next) = numericEntityWidth? p lead text := by
  simp only [numericEntityWidth?, runLength_join h, drop_join (runLength_le p text),
    head?_join_eq_some (show ';' ≠ '\n' by decide)]

/-- A named entity reference is the same. -/
theorem namedEntityWidth?_join :
    namedEntityWidth? (text ++ '\n' :: next) = namedEntityWidth? text := by
  have hend : ∀ rest : Text, ((rest ++ '\n' :: next).head? == some ';') =
      (rest.head? == some ';') := by
    intro rest
    rw [Bool.eq_iff_iff, beq_iff_eq, beq_iff_eq, head?_join_eq_some (by decide)]
  simp only [namedEntityWidth?, runLength_join (p := Char.isAlphanum) (by decide),
    drop_join (runLength_le Char.isAlphanum text), hend,
    any_head?_join (p := Char.isAlpha) (by decide)]

/-- An entity reference is the same. -/
theorem entityWidth?_join : entityWidth? (text ++ '\n' :: next) = entityWidth? text := by
  unfold entityWidth?
  simp only [head?_join_eq_some (show '#' ≠ '\n' by decide)]
  split
  next hsharp =>
    obtain ⟨text, rfl⟩ := List.head?_eq_some_iff.1 hsharp
    simp only [List.cons_append, List.drop_succ_cons, List.drop_zero,
      head?_join_eq_some (show 'x' ≠ '\n' by decide),
      head?_join_eq_some (show 'X' ≠ '\n' by decide)]
    split
    next hmark =>
      obtain ⟨mark, text, rfl⟩ : ∃ mark tail, text = mark :: tail := by
        rcases hmark with h | h <;> exact ⟨_, List.head?_eq_some_iff.1 h⟩
      exact numericEntityWidth?_join (by decide) 3
    next => exact numericEntityWidth?_join (by decide) 2
  next => exact namedEntityWidth?_join

end Markup

end

end LineLexer
