import LineLexer.Proofs.Bytewise.Measure
import LineLexer.Proofs.Link.Closer
import LineLexer.Proofs.Text.Boundary
import Mathlib.Data.List.Infix
import Mathlib.Data.Prod.Lex
import Mathlib.Order.Bounds.Basic

/-!
# The leftmost link

A link of a text is described by where it starts and where it stops (`Link.IsLink`): it starts with
a mark that no letter or digit stands before, goes on behind the mark, and takes as many link
characters as it can while it ends as a link may. `Link.find?` goes through the text place by place.
The bytes of a text can also be searched mark by mark: for each of the five marks the first place
that is free, of these places the least, and again from behind that place where nothing but the mark
would be left (`Link.search`). Both find the leftmost link and none where there is none
(`Link.range?_leftmost`).

What a search from a place on has to find is `Link.IsFirst`, which only one answer meets
(`Link.IsFirst.unique`), so both searches are shown to meet it.
-/

namespace LineLexer.Link

/-! ## What a link of a text is -/

/-- A run of link characters that ends as a link may. -/
structure IsTrimmed (run : Text) : Prop where
  isLinkChar : ∀ c ∈ run, isLinkChar c = true
  isLinkEnd : ∃ c ∈ run.getLast?, isLinkEnd c = true

/-- The places at which trimmed runs stop that start at a place. -/
def stops (text : Text) (start : Nat) : Set Nat :=
  {stop | ∃ run, run <+: text.drop start ∧ IsTrimmed run ∧ stop = start + run.length}

/-- No letter or digit stands before a place. -/
def IsFree (text : Text) (place : Nat) : Prop :=
  ∀ c ∈ (text.take place).getLast?, c.isAlphanum = false

instance (text : Text) (place : Nat) : Decidable (IsFree text place) :=
  decidable_of_iff ((text.take place).getLast?.all fun c => !c.isAlphanum) (by
    simp only [IsFree, Option.all_eq_true, Option.mem_def, Bool.not_eq_true'])

/-- A link takes the part of a text from a place to a place behind it. -/
structure IsLink (text : Text) (start stop : Nat) : Prop where
  free : IsFree text start
  marked : ∃ mark ∈ marks, mark <+: text.drop start ∧ start + mark.length < stop
  trimmed : IsGreatest (stops text start) stop

/-- What a search from a place on has to find: the first of the links that start there or behind. -/
def IsFirst (text : Text) (origin : Nat) : Option (Nat × Nat) → Prop
  | none => ∀ start stop, origin ≤ start → ¬IsLink text start stop
  | some (start, stop) => (origin ≤ start ∧ IsLink text start stop) ∧
      ∀ earlier last, origin ≤ earlier → earlier < start → ¬IsLink text earlier last

section

variable {text : Text}

/-- A link is as long as it can be, so at one place there is one. -/
theorem IsLink.stop_unique {start stop other : Nat} (h : IsLink text start stop)
    (hother : IsLink text start other) : stop = other :=
  h.trimmed.unique hother.trimmed

/-- There is one first link, or none. -/
theorem IsFirst.unique {origin : Nat} {found other : Option (Nat × Nat)}
    (h : IsFirst text origin found) (hother : IsFirst text origin other) : found = other := by
  cases found with
  | none =>
    cases other with
    | none => rfl
    | some other => exact absurd hother.1.2 (h _ _ hother.1.1)
  | some found =>
    cases other with
    | none => exact absurd h.1.2 (hother _ _ h.1.1)
    | some other =>
      obtain ⟨⟨hle, hlink⟩, hleast⟩ := h
      obtain ⟨⟨hleOther, hlinkOther⟩, hleastOther⟩ := hother
      have hstart : found.1 = other.1 := by
        rcases Nat.lt_trichotomy found.1 other.1 with hlt | heq | hlt
        · exact absurd hlink (hleastOther _ _ hle hlt)
        · exact heq
        · exact absurd hlinkOther (hleast _ _ hleOther hlt)
      rw [← hstart] at hlinkOther
      exact congrArg some (Prod.ext hstart (hlink.stop_unique hlinkOther))

/-! ## Marks -/

/-- No mark starts another one. -/
theorem eq_of_mark_starts {mark other : Text} (hmark : mark ∈ marks) (hother : other ∈ marks)
    (h : mark <+: text) (hotherStarts : other <+: text) : mark = other := by
  have hmarks : ∀ mark ∈ marks, ∀ other ∈ marks, mark <+: other → mark = other := by decide
  rcases List.prefix_or_prefix_of_prefix h hotherStarts with hp | hp
  · exact hmarks mark hmark other hother hp
  · exact (hmarks other hother mark hmark hp).symm

/-- A mark does not start again within itself. -/
theorem not_prefix_drop_of_mark {mark : Text} (hmark : mark ∈ marks) (h : mark <+: text) {i : Nat}
    (hpos : 0 < i) (hlt : i < mark.length) : ¬mark <+: text.drop i := by
  have hmarks : ∀ mark ∈ marks, ∀ i < mark.length, 0 < i → ¬mark.drop i <+: mark := by decide
  intro hagain
  refine hmarks mark hmark i hlt hpos ?_
  have hle : (mark.drop i).length ≤ mark.length := by
    rw [List.length_drop]
    exact Nat.sub_le ..
  exact List.prefix_of_prefix_length_le (h.drop i) hagain hle

/-- The mark that a text starts with is the one that is looked up. -/
theorem find?_marks {mark : Text} (hmark : mark ∈ marks) (h : mark <+: text) :
    marks.find? (·.isPrefixOf text) = some mark := by
  have hsome : (marks.find? (·.isPrefixOf text)).isSome :=
    List.find?_isSome.2 ⟨mark, hmark, List.isPrefixOf_iff_prefix.2 h⟩
  obtain ⟨other, hother⟩ := Option.isSome_iff_exists.1 hsome
  have hstarts := List.find?_some (p := fun head => List.isPrefixOf head text) hother
  rw [List.isPrefixOf_iff_prefix] at hstarts
  rw [hother, eq_of_mark_starts (List.mem_of_find?_eq_some hother) hmark hstarts h]

/-- What is found at the head of a text starts with a mark and is wider. -/
theorem width?_marked {width : Nat} (h : width? text = some width) :
    ∃ mark ∈ marks, mark <+: text ∧ mark.length < width := by
  unfold width? at h
  split at h
  · cases h
  next mark hmark =>
    dsimp only at h
    split at h <;> cases h
    next hlt =>
      have hstarts := List.find?_some (p := fun head => List.isPrefixOf head text) hmark
      exact ⟨mark, List.mem_of_find?_eq_some hmark, List.isPrefixOf_iff_prefix.1 hstarts, hlt⟩

/-! ## Trimmed runs -/

/-- What is trimmed off a run reaches no further than to the last character that is kept. -/
theorem length_le_rdropWhile {p : Char → Bool} {run : Text} {last : Char}
    (hlast : run.getLast? = some last) (h : p last = false) (tail : Text) :
    run.length ≤ ((run ++ tail).rdropWhile p).length := by
  induction tail using List.reverseRecOn with
  | nil =>
    obtain ⟨front, rfl⟩ := List.getLast?_eq_some_iff.1 hlast
    rw [List.append_nil, List.rdropWhile_concat_neg p front last (by simp [h])]
  | append_singleton tail c ih =>
    rw [← List.append_assoc]
    cases hc : p c with
    | true =>
      rwa [List.rdropWhile_concat_pos p (run ++ tail) c hc]
    | false =>
      rw [List.rdropWhile_concat_neg p (run ++ tail) c (by simp [hc]), List.append_assoc,
        List.length_append]
      exact Nat.le_add_right ..

/-- A run without the punctuation at its end, if anything is left, is the longest trimmed one. -/
theorem isGreatest_stops {start : Nat}
    (hpos : 0 < trimmedWidth ((text.drop start).takeWhile isLinkChar)) :
    IsGreatest (stops text start)
      (start + trimmedWidth ((text.drop start).takeWhile isLinkChar)) := by
  have hwidth : ∀ run : Text,
      trimmedWidth run = (run.rdropWhile fun c => !isLinkEnd c).length := by
    intro run
    rw [trimmedWidth, List.rdropWhile, List.length_reverse]
  rw [hwidth] at hpos ⊢
  have hrun : ((text.drop start).takeWhile isLinkChar).rdropWhile (fun c => !isLinkEnd c) <+:
      (text.drop start).takeWhile isLinkChar := List.rdropWhile_prefix ..
  have hne := List.length_pos_iff.1 hpos
  constructor
  · refine ⟨_, hrun.trans (List.takeWhile_prefix _), ⟨?_, ?_⟩, rfl⟩
    · exact fun c hc => List.all_eq_true.1 List.all_takeWhile c (hrun.subset hc)
    · exact ⟨_, List.getLast?_eq_some_getLast hne, by
        simpa using List.rdropWhile_last_not _ _ hne⟩
  · rintro _ ⟨other, ⟨tail, hother⟩, ⟨hchars, last, hlast, hend⟩, rfl⟩
    refine Nat.add_le_add_left ?_ start
    -- The link characters go on from the other run, whose last one is kept.
    have hsplit : (text.drop start).takeWhile isLinkChar = other ++ tail.takeWhile isLinkChar := by
      rw [← hother, List.takeWhile_append_of_pos hchars]
    rw [hsplit]
    exact length_le_rdropWhile hlast (by simp [hend]) _

/-! ## Searching place by place -/

/-- At a free place a link starts exactly if one is found at the head of what is left there. -/
theorem isLink_iff {start stop : Nat} :
    IsLink text start stop ↔ IsFree text start ∧
      ∃ width, width? (text.drop start) = some width ∧ stop = start + width := by
  constructor
  · rintro ⟨hfree, ⟨mark, hmark, hstarts, hlt⟩, htrimmed⟩
    obtain ⟨run, ⟨tail, hrun⟩, ⟨hchars, last, hlast, hend⟩, -⟩ := htrimmed.1
    -- The end of the run is not trimmed off.
    have hpos : 0 < trimmedWidth ((text.drop start).takeWhile isLinkChar) := by
      have hmem : last ∈ (text.drop start).takeWhile isLinkChar := by
        rw [← hrun, List.takeWhile_append_of_pos hchars]
        exact List.mem_append_left _ (List.mem_of_getLast? hlast)
      rw [trimmedWidth, List.length_pos_iff, Ne, List.dropWhile_eq_nil_iff]
      intro hall
      simpa [hend] using hall last (List.mem_reverse.2 hmem)
    have hstop := htrimmed.unique (isGreatest_stops hpos)
    refine ⟨hfree, _, ?_, hstop⟩
    rw [width?, find?_marks hmark hstarts]
    exact if_pos (by omega)
  · rintro ⟨hfree, width, hwidth, rfl⟩
    obtain ⟨mark, hmark, hstarts, hlt⟩ := width?_marked hwidth
    have htrim : width = trimmedWidth ((text.drop start).takeWhile isLinkChar) := by
      rw [(width?_eq_some hwidth).1, trimmedWidth, List.rdropWhile, List.length_reverse]
    refine ⟨hfree, ⟨mark, hmark, hstarts, by omega⟩, ?_⟩
    rw [htrim]
    exact isGreatest_stops (by omega)

/-- Where no link starts up to a place, the search goes on behind it. -/
theorem IsFirst.of_le {origin place : Nat} {found : Option (Nat × Nat)} (hle : origin ≤ place)
    (hnone : ∀ start stop, origin ≤ start → start < place + 1 → ¬IsLink text start stop)
    (h : IsFirst text (place + 1) found) : IsFirst text origin found := by
  have hstep : ∀ start stop, origin ≤ start → IsLink text start stop → place + 1 ≤ start :=
    fun start stop hstart hlink => Nat.not_lt.1 fun hlt => hnone start stop hstart hlt hlink
  cases found with
  | none => exact fun start stop hstart hlink => h start stop (hstep start stop hstart hlink) hlink
  | some found =>
    refine ⟨⟨hle.trans (Nat.le_of_succ_le h.1.1), h.1.2⟩, fun earlier last hstart hlt hlink => ?_⟩
    exact h.2 earlier last (hstep earlier last hstart hlink) hlt hlink

/-- Going from place to place finds the first link, given what stands before. -/
theorem isFirst_findFrom? (before rest : Text) :
    IsFirst (before ++ rest) before.length
      ((findFrom? (decide (IsFree (before ++ rest) before.length)) rest).map fun found =>
        (before.length + found.1, before.length + found.1 + found.2)) := by
  induction rest generalizing before with
  | nil =>
    intro start stop hle hlink
    obtain ⟨mark, hmark, hstarts, -⟩ := hlink.marked
    have hne : mark ≠ [] := by
      have hmarks : ∀ mark ∈ marks, mark ≠ [] := by decide
      exact hmarks mark hmark
    rw [List.append_nil, List.drop_of_length_le hle, List.prefix_nil] at hstarts
    exact hne hstarts
  | cons c rest ih =>
    have hdrop : (before ++ c :: rest).drop before.length = c :: rest := List.drop_left
    unfold findFrom?
    split
    next width hwidth =>
      split at hwidth
      next hfree =>
        have hlink : IsLink (before ++ c :: rest) before.length (before.length + width) :=
          isLink_iff.2 ⟨of_decide_eq_true hfree, width, by rw [hdrop]; exact hwidth, rfl⟩
        exact ⟨⟨Nat.le_refl _, hlink⟩, fun earlier _ hle hlt => absurd hle (Nat.not_le.2 hlt)⟩
      · cases hwidth
    next hnone =>
      have hno : ∀ start stop, before.length ≤ start → start < before.length + 1 →
          ¬IsLink (before ++ c :: rest) start stop := by
        intro start stop hle hlt hlink
        obtain rfl := Nat.le_antisymm hle (Nat.le_of_lt_succ hlt)
        obtain ⟨hfree, width, hwidth, -⟩ := isLink_iff.1 hlink
        rw [hdrop] at hwidth
        rw [decide_eq_true hfree, if_pos rfl, hwidth] at hnone
        cases hnone
      -- What stands before the next place ends in the character.
      have hnext := ih (before ++ [c])
      have hfree : decide (IsFree (before ++ c :: rest) (before.length + 1)) = !c.isAlphanum := by
        have htake : (before ++ c :: rest).take (before.length + 1) = before ++ [c] := by
          rw [List.take_append, List.take_of_length_le (Nat.le_succ _), Nat.add_sub_cancel_left]
          rfl
        rw [Bool.eq_iff_iff, decide_eq_true_iff, IsFree, htake, List.getLast?_concat]
        simp
      rw [List.append_assoc, List.singleton_append, List.length_append, List.length_singleton,
        hfree] at hnext
      simpa [Function.comp_def, Nat.add_assoc, Nat.add_comm 1] using hnext.of_le (Nat.le_refl _) hno

end

/-! ## Searching mark by mark -/

/-- The places of a needle from left to right that do not overlap, in a text from a place on, of
which some characters belong to the occurrence before. -/
def occurrences (needle : Text) : (skip place : Nat) → Text → List Nat
  | _, _, [] => []
  | skip + 1, place, _ :: rest => occurrences needle skip (place + 1) rest
  | 0, place, c :: rest =>
    if needle.isPrefixOf (c :: rest) then
      place :: occurrences needle (needle.length - 1) (place + 1) rest
    else occurrences needle 0 (place + 1) rest

/-- The first free place of a mark from a place on. -/
def firstFree? (text : Text) (origin : Nat) (mark : Text) : Option Nat :=
  (occurrences mark 0 origin (text.drop origin)).find? fun place => decide (IsFree text place)

/-- The least of the first free places of all marks, and how long the mark there is. -/
def candidate? (text : Text) (origin : Nat) : Option (Nat × Nat) :=
  ((marks.filterMap fun mark =>
    (firstFree? text origin mark).map fun place => toLex (place, mark.length)).min?).map ofLex

/-- Where the link of a mark stops, unless nothing but the mark is left of it. -/
def linkEnd? (text : Text) (start length : Nat) : Option Nat :=
  let width := trimmedWidth ((text.drop start).takeWhile isLinkChar)
  if length < width then some (start + width) else none

section

variable {text : Text} {origin : Nat}

/-- No place comes before the one that is searched from. -/
theorem le_of_mem_occurrences {needle : Text} {skip place found : Nat}
    (h : found ∈ occurrences needle skip place text) : place ≤ found := by
  fun_induction occurrences needle skip place text with
  | case1 => cases h
  | case2 skip place c rest ih => exact Nat.le_of_succ_le (ih h)
  | case3 place c rest hstarts ih =>
    rcases List.mem_cons.1 h with rfl | h
    · exact Nat.le_refl _
    · exact Nat.le_of_succ_le (ih h)
  | case4 place c rest hstarts ih => exact Nat.le_of_succ_le (ih h)

/-- The places of a needle come in order. -/
theorem pairwise_occurrences (needle : Text) (skip place : Nat) (text : Text) :
    (occurrences needle skip place text).Pairwise (· < ·) := by
  fun_induction occurrences needle skip place text with
  | case1 => exact .nil
  | case2 skip place c rest ih => exact ih
  | case3 place c rest hstarts ih => exact .cons (fun _ h => le_of_mem_occurrences h) ih
  | case4 place c rest hstarts ih => exact ih

/-- As a mark does not start again within itself, none of its places is passed over. -/
theorem mem_occurrences_iff {mark : Text} (hmark : mark ∈ marks) {skip place : Nat}
    (hskip : ∀ i < skip, ¬mark <+: text.drop i) {found : Nat} :
    found ∈ occurrences mark skip place text ↔
      ∃ i, mark <+: text.drop i ∧ found = place + i := by
  have hne : mark ≠ [] := by
    have hmarks : ∀ mark ∈ marks, mark ≠ [] := by decide
    exact hmarks mark hmark
  -- A place of the text is its head or a place of the rest.
  have hsplit : ∀ {c rest place}, (∃ i, mark <+: (c :: rest).drop i ∧ found = place + i) ↔
      (mark <+: c :: rest ∧ found = place) ∨ ∃ i, mark <+: rest.drop i ∧ found = place + 1 + i := by
    intro c rest place
    constructor
    · rintro ⟨_ | i, hi, rfl⟩
      · exact .inl ⟨hi, rfl⟩
      · exact .inr ⟨i, hi, by omega⟩
    · rintro (⟨h, rfl⟩ | ⟨i, hi, rfl⟩)
      · exact ⟨0, h, rfl⟩
      · exact ⟨i + 1, hi, by omega⟩
  fun_induction occurrences mark skip place text with
  | case1 => simp [hne]
  | case2 skip place c rest ih =>
    have hhead : ¬mark <+: c :: rest := hskip 0 (Nat.succ_pos _)
    refine (ih fun i hi => hskip (i + 1) (Nat.succ_lt_succ hi)).trans ?_
    rw [hsplit]
    simp [hhead]
  | case3 place c rest hstarts ih =>
    rw [List.isPrefixOf_iff_prefix] at hstarts
    have hrest := ih fun i hi =>
      not_prefix_drop_of_mark hmark hstarts (Nat.succ_pos i) (by omega)
    refine List.mem_cons.trans ((or_congr_right hrest).trans ?_)
    rw [hsplit]
    simp [hstarts]
  | case4 place c rest hstarts ih =>
    rw [List.isPrefixOf_iff_prefix] at hstarts
    refine (ih fun i hi => absurd hi (Nat.not_lt_zero i)).trans ?_
    rw [hsplit]
    simp [hstarts]

/-- A mark stands at a place and no letter or digit before it. -/
def IsMarked (text : Text) (mark : Text) (place : Nat) : Prop :=
  IsFree text place ∧ mark <+: text.drop place

/-- The first free place of a mark is the least one from a place on. -/
theorem firstFree?_eq_some {mark : Text} (hmark : mark ∈ marks) {place : Nat}
    (h : firstFree? text origin mark = some place) :
    IsLeast {place | origin ≤ place ∧ IsMarked text mark place} place := by
  obtain ⟨hfree, front, back, hsplit, hbefore⟩ := List.find?_eq_some_iff_append.1 h
  have hmem : ∀ {place}, place ∈ occurrences mark 0 origin (text.drop origin) ↔
      origin ≤ place ∧ mark <+: text.drop place := by
    intro place
    rw [mem_occurrences_iff hmark fun i hi => absurd hi (Nat.not_lt_zero i)]
    constructor
    · rintro ⟨i, hi, rfl⟩
      exact ⟨Nat.le_add_right .., by rwa [List.drop_drop] at hi⟩
    · rintro ⟨hle, hstarts⟩
      exact ⟨place - origin, by rwa [List.drop_drop, Nat.add_sub_cancel' hle], by omega⟩
  have hplace := hmem.1 (hsplit ▸ List.mem_append_right _ List.mem_cons_self)
  refine ⟨⟨hplace.1, of_decide_eq_true hfree, hplace.2⟩, ?_⟩
  rintro other ⟨hle, hotherFree, hstarts⟩
  have hother := hmem.2 ⟨hle, hstarts⟩
  have hsorted := pairwise_occurrences mark 0 origin (text.drop origin)
  rw [hsplit] at hother hsorted
  rcases List.mem_append.1 hother with hfront | hback
  · simpa [hotherFree] using hbefore other hfront
  · rcases List.mem_cons.1 hback with rfl | hback
    · exact Nat.le_refl _
    · exact Nat.le_of_lt ((List.pairwise_cons.1 (List.pairwise_append.1 hsorted).2.1).1 other hback)

/-- Where no first free place of a mark is found, there is none. -/
theorem firstFree?_eq_none {mark : Text} (hmark : mark ∈ marks)
    (h : firstFree? text origin mark = none) {place : Nat} (hle : origin ≤ place) :
    ¬IsMarked text mark place := by
  rintro ⟨hfree, hstarts⟩
  have hmem : place ∈ occurrences mark 0 origin (text.drop origin) :=
    (mem_occurrences_iff hmark fun i hi => absurd hi (Nat.not_lt_zero i)).2
      ⟨place - origin, by rwa [List.drop_drop, Nat.add_sub_cancel' hle], by omega⟩
  simpa [hfree] using List.find?_eq_none.1 h place hmem

/-- The least of the first free places is the least one of any mark. -/
theorem candidate?_eq_some {start length : Nat}
    (h : candidate? text origin = some (start, length)) :
    IsLeast {place | origin ≤ place ∧ ∃ mark ∈ marks, IsMarked text mark place} start ∧
      ∃ mark ∈ marks, mark.length = length ∧ IsMarked text mark start := by
  obtain ⟨pair, hmin, hpair⟩ := Option.map_eq_some_iff.1 h
  obtain ⟨hmem, hleast⟩ := List.min?_eq_some_iff.1 hmin
  obtain ⟨mark, hmark, hfound⟩ := List.mem_filterMap.1 hmem
  obtain ⟨place, hplace, rfl⟩ := Option.map_eq_some_iff.1 hfound
  obtain ⟨rfl, rfl⟩ := Prod.mk.inj hpair
  have hfirst := firstFree?_eq_some hmark hplace
  refine ⟨⟨⟨hfirst.1.1, mark, hmark, hfirst.1.2⟩, ?_⟩, mark, hmark, rfl, hfirst.1.2⟩
  rintro earlier ⟨hle, other, hother, hmarked⟩
  -- The other mark has a first free place of its own, which the least one does not pass.
  cases hfree : firstFree? text origin other with
  | none => exact absurd hmarked (firstFree?_eq_none hother hfree hle)
  | some first =>
    have hpairs := hleast (toLex (first, other.length))
      (List.mem_filterMap.2 ⟨other, hother, by rw [hfree]; rfl⟩)
    exact (Prod.Lex.monotone_fst _ _ hpairs).trans
      ((firstFree?_eq_some hother hfree).2 ⟨hle, hmarked⟩)

/-- Where there is no least free place, no mark has a free place. -/
theorem candidate?_eq_none (h : candidate? text origin = none) {mark : Text} (hmark : mark ∈ marks)
    {place : Nat} (hle : origin ≤ place) : ¬IsMarked text mark place := by
  refine firstFree?_eq_none hmark ?_ hle
  have hnil := List.min?_eq_none_iff.1 (Option.map_eq_none_iff.1 h)
  exact Option.map_eq_none_iff.1 (List.filterMap_eq_nil_iff.1 hnil mark hmark)

/-- Where a mark has a free place, the link there stops where the mark is said to lead to. -/
theorem isLink_iff_linkEnd? {mark : Text} (hmark : mark ∈ marks) {start stop : Nat}
    (h : IsMarked text mark start) :
    IsLink text start stop ↔ linkEnd? text start mark.length = some stop := by
  rw [isLink_iff, and_iff_right h.1, width?, find?_marks hmark h.2, linkEnd?]
  dsimp only
  split <;> simp [eq_comm]

/-- A free place of a mark lies within the text. -/
theorem IsMarked.lt_length {mark : Text} (hmark : mark ∈ marks) {place : Nat}
    (h : IsMarked text mark place) : place < text.length := by
  have hmarks : ∀ mark ∈ marks, 0 < mark.length := by decide
  have hle := h.2.length_le
  have hpos := hmarks mark hmark
  rw [List.length_drop] at hle
  omega

end

/-- The first link of a text from a place on: the link at the least free place of a mark, unless
nothing but the mark is left of it, else the first one from behind that place. -/
def search (text : Text) (origin : Nat) : Option (Nat × Nat) :=
  match _h : candidate? text origin with
  | none => none
  | some (start, length) =>
    match linkEnd? text start length with
    | some stop => some (start, stop)
    | none => search text (start + 1)
termination_by text.length - origin
decreasing_by
  obtain ⟨⟨⟨hle, -⟩, -⟩, mark, hmark, -, hmarked⟩ := candidate?_eq_some _h
  have := hmarked.lt_length hmark
  omega

/-- The search mark by mark finds the first link. -/
theorem isFirst_search (text : Text) (origin : Nat) : IsFirst text origin (search text origin) := by
  fun_induction search text origin with
  | case1 origin h =>
    intro start stop hle hlink
    obtain ⟨mark, hmark, hstarts, -⟩ := hlink.marked
    exact candidate?_eq_none h hmark hle ⟨hlink.free, hstarts⟩
  | case2 origin start length h stop hstop =>
    obtain ⟨⟨⟨hle, -⟩, hleast⟩, mark, hmark, rfl, hmarked⟩ := candidate?_eq_some h
    refine ⟨⟨hle, (isLink_iff_linkEnd? hmark hmarked).2 hstop⟩, ?_⟩
    intro earlier last hearlier hlt hlink
    obtain ⟨other, hother, hstarts, -⟩ := hlink.marked
    exact Nat.not_lt.2 (hleast ⟨hearlier, other, hother, hlink.free, hstarts⟩) hlt
  | case3 origin start length h hnone ih =>
    obtain ⟨⟨⟨hle, -⟩, hleast⟩, mark, hmark, rfl, hmarked⟩ := candidate?_eq_some h
    refine IsFirst.of_le hle ?_ ih
    intro earlier last hearlier hlt hlink
    obtain ⟨other, hother, hstarts, -⟩ := hlink.marked
    have hstart : earlier = start :=
      Nat.le_antisymm (Nat.le_of_lt_succ hlt)
        (hleast ⟨hearlier, other, hother, hlink.free, hstarts⟩)
    rw [hstart, isLink_iff_linkEnd? hmark hmarked, hnone] at hlink
    cases hlink

/-! ## The link that is found -/

/-- The byte positions between which the first link of a text stands. -/
def range? (text : Text) : Option (Nat × Nat) :=
  (find? text).map fun found =>
    (byteLength (text.take found.1), byteLength (text.take (found.1 + found.2)))

section

variable {text : Text}

/-- A link that is found takes a byte for each of its characters. -/
theorem byteLength_take_of_find? {start width : Nat} (h : find? text = some (start, width)) :
    byteLength (text.take (start + width)) = byteLength (text.take start) + width := by
  have hle := (find?_bounds h).2
  rw [List.take_add, byteLength_append, byteLength_of_allAscii (allAscii_findFrom? h),
    List.length_take, List.length_drop, Nat.min_eq_left (by omega)]

/-- The positions of the link are what is found in the bytes of the text. -/
theorem isFirst_range? (text : Text) : IsFirst (bytewise text) 0 (range? text) := by
  have h := isFirst_findFrom? [] (bytewise text)
  have hfree : IsFree (bytewise text) 0 := fun c hc => by cases hc
  have hrange : range? text = (find? (bytewise text)).map fun found =>
      (found.1, found.1 + found.2) := by
    rw [find?_bytewise, range?, Option.map_map]
    refine Option.map_congr fun found hfound => ?_
    exact congrArg _ (byteLength_take_of_find? hfound)
  rw [hrange]
  simpa [hfree, find?] using h

/-- The link of a text lies between two characters on each side. -/
theorem isBoundary_of_range? {start stop : Nat} (h : range? text = some (start, stop)) :
    IsBoundary text start ∧ IsBoundary text stop := by
  obtain ⟨found, -, hfound⟩ := Option.map_eq_some_iff.1 h
  obtain ⟨rfl, rfl⟩ := Prod.mk.inj hfound
  exact ⟨⟨_, _, (List.take_append_drop _ _).symm, rfl⟩,
    ⟨_, _, (List.take_append_drop _ _).symm, rfl⟩⟩

end

/-- The link that is found in a text is the leftmost link of its bytes, none is found only if there
is none, the search mark by mark finds the same, and it lies between characters. -/
theorem range?_leftmost (text : Text) :
    range? text = search (bytewise text) 0 ∧
    (∀ start stop, range? text = some (start, stop) ↔
      IsLink (bytewise text) start stop ∧
        IsLeast {place | ∃ last, IsLink (bytewise text) place last} start) ∧
    (range? text = none ↔ ∀ start stop, ¬IsLink (bytewise text) start stop) ∧
    ∀ start stop, range? text = some (start, stop) →
      IsBoundary text start ∧ IsBoundary text stop := by
  have hfirst := isFirst_range? text
  refine ⟨hfirst.unique (isFirst_search _ 0), fun start stop => ⟨fun h => ?_, fun h => ?_⟩,
    ⟨fun h start stop => ?_, fun h => ?_⟩, fun _ _ => isBoundary_of_range?⟩
  · rw [h] at hfirst
    refine ⟨hfirst.1.2, ⟨stop, hfirst.1.2⟩, ?_⟩
    rintro place ⟨last, hlink⟩
    exact Nat.not_lt.1 fun hlt => hfirst.2 place last (Nat.zero_le _) hlt hlink
  · obtain ⟨hlink, -, hleast⟩ := h
    refine hfirst.unique ⟨⟨Nat.zero_le _, hlink⟩, fun earlier last _ hlt hearlier => ?_⟩
    exact Nat.not_lt.2 (hleast ⟨last, hearlier⟩) hlt
  · rw [h] at hfirst
    exact hfirst start stop (Nat.zero_le _)
  · exact hfirst.unique fun start stop _ => h start stop

-- A letter stands before the first mark, and the second one has nothing behind it.
example : range? "awww.x http:// (www.a.b).".toList = some (16, 23) := by decide +kernel

end LineLexer.Link
