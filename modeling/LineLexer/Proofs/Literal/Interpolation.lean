import LineLexer.Proofs.LineBreak.Resume
import LineLexer.Proofs.Literal.Escape
import LineLexer.Proofs.Scan.Cut

/-!
# Where interpolations close

An interpolation is read for its braces only. The number of open braces is a fold over the text that
does not grow beyond the largest depth a state records (`openBraces`), and as long as it need not be
held back there it is what the braces of either kind make (`openBraces_eq_min`). The
interpolation closes at the first closing brace that leaves none open
(`isThroughFirst_interpolationBody`); if there is none it takes the rest of the line and the number
goes on in the state.

In the text of a template the first dollar sign that is not escaped and has an opening brace behind
it opens an interpolation, unless the template is closed before (`templateBody_eq_of_isLeast`).
`interpolation_closes` puts this together for the tokens of lines that come to an interpolation.
-/

namespace LineLexer.Script

/-! ## Counting braces -/

/-- The number of open braces after a character; at the largest depth it stays. -/
def countBrace (depth : Int) (c : Char) : Int :=
  if c = '{' then min (depth + 1) 255 else if c = '}' then depth - 1 else depth

/-- An opening brace is one more, up to the largest depth. -/
theorem countBrace_open (depth : Int) : countBrace depth '{' = min (depth + 1) 255 :=
  if_pos rfl

/-- A closing brace is one less. -/
theorem countBrace_close (depth : Int) : countBrace depth '}' = depth - 1 := by
  rw [countBrace, if_neg (by decide), if_pos rfl]

/-- Any other character is not counted. -/
theorem countBrace_other {c : Char} (hopen : c ≠ '{') (hclose : c ≠ '}') (depth : Int) :
    countBrace depth c = depth := by
  rw [countBrace, if_neg hopen, if_neg hclose]

/-- The number of open braces after a text. -/
def openBraces (depth : Int) (text : Text) : Int :=
  text.foldl countBrace depth

/-- The characters of a text are counted from the first one on. -/
theorem openBraces_cons (depth : Int) (c : Char) (rest : Text) :
    openBraces depth (c :: rest) = openBraces (countBrace depth c) rest :=
  List.foldl_cons ..

/-- The number of open braces after a text that the braces of either kind make. -/
def balance (depth : Int) (text : Text) : Int :=
  depth + text.count '{' - text.count '}'

/-- The places of the closing braces that leave no brace open. -/
def closings (depth : Int) (text : Text) : Set Nat :=
  {place | text[place]? = some '}' ∧ openBraces depth (text.take (place + 1)) = 0}

instance (depth : Int) (text : Text) : DecidablePred (· ∈ closings depth text) := fun place =>
  inferInstanceAs (Decidable (text[place]? = some '}' ∧
    openBraces depth (text.take (place + 1)) = 0))

/-- Up to the largest depth, a character is counted as the braces make it. -/
theorem countBrace_balance {depth : Int} {text : Text} (h : balance depth text ≤ 255) (c : Char) :
    countBrace (balance depth text) c = min (balance depth (text ++ [c])) 255 := by
  unfold balance at h ⊢
  rw [List.count_append, List.count_append]
  by_cases hopen : c = '{'
  · simp [hopen, countBrace_open]
    omega
  by_cases hclose : c = '}'
  · simp [hclose, countBrace_close]
    omega
  · simp [hopen, hclose, countBrace_other]
    omega

/-- As long as the number of open braces need not be held back, it is what the braces make. -/
theorem openBraces_eq_min {depth : Int} (hdepth : depth ≤ 255) (text : Text) (n : Nat)
    (h : ∀ m < n, balance depth (text.take m) ≤ 255) :
    openBraces depth (text.take n) = min (balance depth (text.take n)) 255 := by
  induction n with
  | zero => simp [openBraces, balance, hdepth]
  | succ n ih =>
    have hbound := h n (Nat.lt_succ_self n)
    have hbefore := ih fun m hm => h m (Nat.lt_succ_of_lt hm)
    rw [min_eq_left hbound] at hbefore
    cases hchar : text[n]? with
    | none =>
      -- The text is over, so one character more is none.
      have htake : text.take (n + 1) = text.take n := by
        rw [List.take_add_one, hchar, Option.toList_none, List.append_nil]
      rw [htake, hbefore, min_eq_left hbound]
    | some c =>
      have htake : text.take (n + 1) = text.take n ++ [c] := by
        rw [List.take_add_one, hchar, Option.toList_some]
      rw [htake, openBraces, List.foldl_append, ← countBrace_balance hbound, ← hbefore]
      rfl

/-- The closing braces of a text that leave none open are its head, if it is one, and those of the
rest for the number of braces that are open there. -/
theorem mem_closings_cons {depth : Int} {c : Char} {rest : Text} {place : Nat} :
    place ∈ closings depth (c :: rest) ↔ place = 0 ∧ c = '}' ∧ depth = 1 ∨
      ∃ i ∈ closings (countBrace depth c) rest, place = 1 + i := by
  cases place with
  | zero =>
    have hone : ∀ d : Int, d - 1 = 0 ↔ d = 1 := fun d => by omega
    constructor
    · rintro ⟨hchar, hzero⟩
      obtain rfl : c = '}' := Option.some.inj hchar
      exact .inl ⟨rfl, rfl, (hone depth).1 hzero⟩
    · rintro (⟨-, rfl, rfl⟩ | ⟨i, -, hi⟩)
      · exact ⟨rfl, rfl⟩
      · omega
  | succ place =>
    constructor
    · exact fun h => .inr ⟨place, h, Nat.add_comm ..⟩
    · rintro (⟨h, -⟩ | ⟨i, hi, hplace⟩)
      · cases h
      · obtain rfl : place = i := by omega
        exact hi

/-! ## Interpolations -/

/-- One more brace is counted up to the largest depth. -/
theorem val_nest (depth : Depth) : (depth.nest.val : Int) = countBrace depth.val '{' := by
  have hlt := depth.isLt
  rw [countBrace_open, Depth.nest]
  split
  · simp only
    omega
  · omega

/-- After one more brace some are open. -/
theorem nest_pos (depth : Depth) : 0 < depth.nest.val := by
  have hnest := val_nest depth
  rw [countBrace_open] at hnest
  omega

/-- One brace less is counted as long as one is open. -/
theorem val_unnest {depth : Depth} (h : 0 < depth.val) :
    (depth.unnest.val : Int) = countBrace depth.val '}' := by
  rw [countBrace_close, Depth.unnest]
  simp only
  omega

/-- The width of an interpolation through its closing brace, if it has one. -/
def InterpolationBody.closing? (body : InterpolationBody) : Option Nat :=
  if body.openBraces = none then some body.width else none

/-- Characters before an interpolation come before its closing brace. -/
theorem closing?_interpolationBody_after (lead : Nat) (body : InterpolationBody) :
    (body.after lead).closing? = body.closing?.map (lead + ·) := by
  unfold InterpolationBody.closing?
  rw [openBraces_interpolationBody_after]
  split <;> rfl

/-- An interpolation is closed by the first closing brace that leaves none open. -/
theorem isThroughFirst_interpolationBody {depth : Depth} (h : 0 < depth.val) (text : Text) :
    IsThroughFirst (closings depth.val text) (interpolationBody depth text).closing? := by
  -- A character that does not close the interpolation leaves the closing to the rest.
  have hstep : ∀ {depth : Depth} {c : Char} {rest : Text} {next : Depth},
      (next.val : Int) = countBrace depth.val c → ¬(c = '}' ∧ (depth.val : Int) = 1) →
      IsThroughFirst (closings next.val rest) (interpolationBody next rest).closing? →
      IsThroughFirst (closings depth.val (c :: rest))
        ((interpolationBody next rest).after 1).closing? := by
    intro depth c rest next hnext hopen hrest
    rw [closing?_interpolationBody_after]
    refine hrest.add fun place => ?_
    rw [mem_closings_cons, or_iff_right fun hhead => hopen hhead.2, hnext]
  fun_induction interpolationBody depth text with
  | case1 => simp [InterpolationBody.closing?, IsThroughFirst, closings]
  | case2 depth rest ih =>
    exact hstep (val_nest depth) (by simp) (ih (nest_pos depth))
  | case3 depth rest hzero =>
    have hunnest := val_unnest h
    rw [countBrace_close] at hunnest
    exact isThroughFirst_head (mem_closings_cons.2 (.inl ⟨rfl, rfl, by omega⟩))
  | case4 depth rest hzero hopen ih =>
    have hunnest := val_unnest h
    have hmore : ¬('}' = '}' ∧ (depth.val : Int) = 1) := by
      rw [countBrace_close] at hunnest
      omega
    exact hstep hunnest hmore (ih (Nat.pos_of_ne_zero hzero))
  | case5 depth c rest hopen hclose ih =>
    exact hstep (countBrace_other hopen hclose _).symm (fun hbrace => hclose hbrace.1) (ih h)

/-- An interpolation that stays open leaves the braces open that are counted. -/
theorem openBraces_interpolationBody {depth left : Depth} (h : 0 < depth.val) {text : Text}
    (hleft : (interpolationBody depth text).openBraces = some left) :
    (left.val : Int) = openBraces depth.val text := by
  fun_induction interpolationBody depth text with
  | case1 depth =>
    obtain rfl := Option.some.inj hleft
    rfl
  | case2 depth rest ih =>
    rw [ih (nest_pos depth) hleft, val_nest, openBraces_cons]
  | case3 => cases hleft
  | case4 depth rest hzero hopen ih =>
    rw [ih (Nat.pos_of_ne_zero hzero) hleft, val_unnest h, openBraces_cons]
  | case5 depth c rest hopen hclose ih =>
    rw [ih h hleft, openBraces_cons, countBrace_other hopen hclose]

/-! ## The text of a template -/

/-- The places of the dollar signs that open an interpolation. -/
def openings (text : Text) : Set Nat :=
  {place | place ∈ bare '$' text ∧ text[place + 1]? = some '{'}

/-- The places where the text of a template ends: at a backquote, or where an interpolation
opens. -/
def interruptions (text : Text) : Set Nat :=
  bare '`' text ∪ openings text

/-- The text of a template is interrupted at its head, or where it is behind a unit. -/
theorem mem_interruptions_iff {text : Text} {width : Nat} (h : IsUnit text width)
    (hbackquote : text.head? ≠ some '`')
    (hdollar : ¬(text.head? = some '$' ∧ text[1]? = some '{')) (place : Nat) :
    place ∈ interruptions text ↔
      ∃ i ∈ interruptions (text.drop width), place = width + i := by
  have hdrop : ∀ i, (text.drop width)[i + 1]? = text[width + i + 1]? := by
    intro i
    rw [List.getElem?_drop, Nat.add_assoc]
  have hplaces : place ∈ openings text ↔ ∃ i ∈ openings (text.drop width), place = width + i := by
    constructor
    · rintro ⟨hbare, hbrace⟩
      rcases (mem_bare_iff h (by decide)).1 hbare with ⟨rfl, hhead⟩ | ⟨i, hi, rfl⟩
      · exact absurd ⟨hhead, hbrace⟩ hdollar
      · exact ⟨i, ⟨hi, by rw [hdrop]; exact hbrace⟩, rfl⟩
    · rintro ⟨i, ⟨hi, hbrace⟩, rfl⟩
      exact ⟨(mem_bare_iff h (by decide)).2 (.inr ⟨i, hi, rfl⟩), by rwa [hdrop] at hbrace⟩
  have hclosed := mem_bare_iff_of_head? h (show isMark '`' = true by decide) hbackquote place
  constructor
  · rintro (hplace | hplace)
    · obtain ⟨i, hi, rfl⟩ := hclosed.1 hplace
      exact ⟨i, .inl hi, rfl⟩
    · obtain ⟨i, hi, rfl⟩ := hplaces.1 hplace
      exact ⟨i, .inr hi, rfl⟩
  · rintro ⟨i, hi | hi, rfl⟩
    · exact .inl (hclosed.2 ⟨i, hi, rfl⟩)
    · exact .inr (hplaces.2 ⟨i, hi, rfl⟩)

/-- The text of a template that an interpolation interrupts first is read up to there. -/
theorem templateBody_eq_of_isLeast (valid : Bool) (text : Text) {place : Nat}
    (hleast : IsLeast (interruptions text) place) (hdollar : text[place]? = some '$') :
    templateBody valid text =
      ⟨place, valid && decide (HasEscapes text place), .interpolated⟩ := by
  fun_induction templateBody valid text generalizing place with
  | case1 => cases hdollar
  | case2 valid rest =>
    obtain rfl : place = 0 :=
      Nat.le_zero.1 (hleast.2 (.inl ⟨rfl, isUnescaped_zero _⟩))
    cases hdollar
  | case3 valid rest hclose ih =>
    cases rest with
    | nil =>
      have hmem := List.mem_of_getElem? hdollar
      rw [List.mem_singleton] at hmem
      cases hmem
    | cons d rest =>
      -- An escape is a unit, so nothing interrupts the text within it.
      have hunit := isUnit_escape (List.cons_ne_nil d rest)
      have hplaces := mem_interruptions_iff hunit (by simp) (by simp)
      obtain ⟨i, hi, rfl⟩ := exists_isLeast_inner hplaces hleast
      rw [← List.getElem?_drop] at hdollar
      have hescapes := hasEscapes_add_iff hunit i
      rw [drop_escape] at hi hdollar hescapes
      rw [ih hi hdollar, TemplateBody.after]
      congr 1
      rw [Bool.eq_iff_iff]
      simp [hescapes, escape_eq_true_iff, and_assoc]
  | case4 valid c rest hclose hescape hopen =>
    rw [Bool.and_eq_true, decide_eq_true_eq, decide_eq_true_eq] at hopen
    have hhead : 0 ∈ interruptions (c :: rest) := by
      refine .inr ⟨⟨congrArg some hopen.1, isUnescaped_zero _⟩, ?_⟩
      rw [List.getElem?_cons_succ, ← List.head?_eq_getElem?, hopen.2]
    obtain rfl : place = 0 := Nat.le_zero.1 (hleast.2 hhead)
    have hescapes : HasEscapes (c :: rest) 0 := fun _ _ hlt => absurd hlt (Nat.not_lt_zero _)
    simp [hescapes]
  | case5 valid c rest hclose hescape hopen ih =>
    have hunit := isUnit_char hescape rest
    have hbrace : ¬((c :: rest).head? = some '$' ∧ (c :: rest)[1]? = some '{') := by
      simpa [List.head?_eq_getElem?] using hopen
    have hplaces := mem_interruptions_iff hunit (by simpa using hclose) hbrace
    obtain ⟨i, hi, rfl⟩ := exists_isLeast_inner hplaces hleast
    rw [← List.getElem?_drop] at hdollar
    rw [ih hi hdollar, TemplateBody.after]
    congr 1
    rw [Bool.eq_iff_iff]
    simp [hasEscapes_add_iff hunit, hescape]

/-! ## Spans of templates -/

/-- The span of a part of a script, none if the part is empty. -/
def spanOf (kind : Kind) (text : Text) : List Span :=
  if text.isEmpty then [] else [⟨kind, .script, text, .empty⟩]

/-- The span of a part spells it. -/
@[simp] theorem spelled_spanOf (kind : Kind) (text : Text) : spelled (spanOf kind text) = text := by
  unfold spanOf
  split
  next h => rw [List.isEmpty_iff.1 h, spelled_nil]
  next => simp

/-- A part that is not empty has a span. -/
theorem spanOf_of_ne_nil {text : Text} (h : text ≠ []) (kind : Kind) :
    spanOf kind text = [⟨kind, .script, text, .empty⟩] := by
  rw [spanOf, if_neg (by simpa using h)]

/-- A piece of a script cuts off the part that it takes. -/
theorem carve_piece_cons (kind : Kind) (width : Nat) (pieces : List Piece) (text : Text) :
    carve (piece kind width :: pieces) text =
      spanOf kind (text.take width) ++ carve pieces (text.drop width) := by
  by_cases h : (text.take width).isEmpty <;> simp [carve, spanOf, piece, h]

/-- From a state, a text is read as some spans and an interpolation behind them that starts with
`opening` and goes on with the body, of which a number of braces is open. What stands behind its
closing brace is read as the text of a template. -/
structure Interpolates (here : ResumeState) (before : List Span) (opening : Text) (depth : Int)
    (body : Text) : Prop where
  closed : ∀ place, IsLeast (closings depth body) place →
    LeadsTo .off here (spelled before ++ opening ++ body)
      (before ++ [⟨.variableName, .script, opening ++ body.take (place + 1), .empty⟩])
      (.script (.template true))
  unclosed : closings depth body = ∅ → ∃ left : Depth,
    (left.val : Int) = openBraces depth body ∧
      LeadsTo .off here (spelled before ++ opening ++ body)
        (before ++ spanOf .variableName (opening ++ body)) (.script (.interpolation left))

section

variable {here : ResumeState}

/-- The body of the interpolation says what is read. -/
theorem interpolates_of_cutsOff {before : List Span} {opening body : Text} {depth : Depth}
    (h : 0 < depth.val)
    (hcut : CutsOff .off here (spelled before ++ opening ++ body)
      (before ++ spanOf .variableName (opening ++ body.take (interpolationBody depth body).width))
      (.script (afterInterpolation (interpolationBody depth body).openBraces))) :
    Interpolates here before opening depth.val body := by
  have hbody := isThroughFirst_interpolationBody h body
  have hleads := hcut.leadsTo (fun _ _ => rfl) fun past other text =>
    scan_eq_in_literal
      (by cases (interpolationBody depth body).openBraces <;> simp [afterInterpolation])
      (by cases (interpolationBody depth body).openBraces <;> simp [afterInterpolation])
      past other text
  constructor
  · intro place hleast
    have hfound := hbody.eq_some hleast
    rw [InterpolationBody.closing?, Option.ite_none_right_eq_some] at hfound
    obtain ⟨hnone, hwidth⟩ := hfound
    have htake : body.take (place + 1) ≠ [] := by
      rw [Ne, List.take_eq_nil_iff, not_or]
      refine ⟨Nat.succ_ne_zero place, ?_⟩
      rintro rfl
      cases hleast.1.1
    rw [hnone, Option.some.inj hwidth, spanOf_of_ne_nil (by simp [htake])] at hleads
    exact hleads
  · intro hnone
    have hfound := hbody.eq_none hnone
    rw [InterpolationBody.closing?, ite_eq_right_iff] at hfound
    obtain ⟨left, hleft⟩ := Option.ne_none_iff_exists'.1 fun h => Option.some_ne_none _ (hfound h)
    rw [hleft, interpolationBody_width_eq hleft, List.take_length] at hleads
    exact ⟨left, openBraces_interpolationBody h hleft, hleads⟩

/-- A line that goes on in an interpolation is cut where the interpolation ends. -/
theorem cutsOff_interpolation (depth : Depth) (body : Text) :
    CutsOff .off (.script (.interpolation depth)) body
      (spanOf .variableName (body.take (interpolationBody depth body).width))
      (.script (afterInterpolation (interpolationBody depth body).openBraces)) := by
  cases body with
  | nil => exact cutsOff_nil _ _
  | cons c rest =>
    have hstep : ∀ past, LineLexer.step past (.script (.interpolation depth)) c rest =
        interpolation depth (c :: rest) := fun _ => rfl
    have hcut := cutsOff_of_step .off hstep fun _ _ => rfl
    rwa [carve_piece_cons, carve, List.append_nil] at hcut

/-- The text of a template that an interpolation interrupts is cut there and where the interpolation
ends. -/
theorem cutsOff_template (head : Text) {before body rest : Text} {c : Char} {valid : Bool}
    (htext : head ++ (before ++ '$' :: '{' :: body) = c :: rest)
    (hstep : ∀ past, LineLexer.step past here c rest =
      template valid head.length (before ++ '$' :: '{' :: body))
    (hleast : IsLeast (interruptions (before ++ '$' :: '{' :: body)) before.length) :
    CutsOff .off here (head ++ (before ++ '$' :: '{' :: body))
      (spanOf (templateKind
          (valid && decide (HasEscapes (before ++ '$' :: '{' :: body) before.length)))
        (head ++ before) ++
        spanOf .variableName ('$' :: '{' :: body.take (interpolationBody .one body).width))
      (.script (afterInterpolation (interpolationBody .one body).openBraces)) := by
  have hbody := templateBody_eq_of_isLeast valid _ hleast (by simp)
  have hdrop : (before ++ '$' :: '{' :: body).drop (before.length + 2) = body := by
    rw [List.drop_append]
    simp
  have hmove : template valid head.length (before ++ '$' :: '{' :: body) =
      ⟨[piece (templateKind
          (valid && decide (HasEscapes (before ++ '$' :: '{' :: body) before.length)))
          (head.length + before.length),
        piece .variableName (2 + (interpolationBody .one body).width)],
        .script (afterInterpolation (interpolationBody .one body).openBraces)⟩ := by
    simp only [template, hbody, hdrop]
  have hcut := cutsOff_of_step .off (fun past => (hstep past).trans hmove)
    fun _ _ => rfl
  have hlead : (head ++ (before ++ '$' :: '{' :: body)).take (head.length + before.length) =
      head ++ before := by
    rw [← List.append_assoc, ← List.length_append, List.take_left]
  have hleft : (head ++ (before ++ '$' :: '{' :: body)).drop (head.length + before.length) =
      '$' :: '{' :: body := by
    rw [← List.append_assoc, ← List.length_append, List.drop_left]
  rw [← htext, carve_piece_cons, carve_piece_cons, carve, List.append_nil, hlead, hleft,
    Nat.add_comm 2] at hcut
  exact hcut

end

/-- An interpolation is one token that closes at the first closing brace that leaves none open, and
else takes the rest of the line and hands its open braces on to the next. So it is on a line
that goes on in an interpolation, and behind the first dollar sign and brace of the text of a
template, which belong to its token. The open braces are those that the braces of either kind
make as long as these are not more than the largest depth. -/
theorem interpolation_closes (depth : Depth) (h : 0 < depth.val) (body : Text) :
    Interpolates (.script (.interpolation depth)) [] [] depth.val body ∧
    (∀ n, (∀ m < n, balance depth.val (body.take m) ≤ 255) →
      openBraces depth.val (body.take n) = min (balance depth.val (body.take n)) 255) ∧
    (∀ n, (∀ m ≤ n, balance depth.val (body.take m) ≤ 255) →
      openBraces depth.val (body.take n) = balance depth.val (body.take n)) ∧
    ∀ valid before, IsLeast (interruptions (before ++ '$' :: '{' :: body)) before.length →
      Interpolates (.script (.template valid))
        (spanOf (templateKind
          (valid && decide (HasEscapes (before ++ '$' :: '{' :: body) before.length))) before)
        ['$', '{'] 1 body ∧
      Interpolates (.script .code)
        [⟨templateKind (decide (HasEscapes (before ++ '$' :: '{' :: body) before.length)), .script,
          '`' :: before, .empty⟩] ['$', '{'] 1 body := by
  have hone : 0 < Depth.one.val := by decide
  have hle : (depth.val : Int) ≤ 255 := by
    have := depth.isLt
    omega
  refine ⟨interpolates_of_cutsOff h ?_, fun n => openBraces_eq_min hle body n, fun n hn => ?_,
    fun valid before hleast => ⟨interpolates_of_cutsOff hone ?_, interpolates_of_cutsOff hone ?_⟩⟩
  · exact cutsOff_interpolation depth body
  · rw [openBraces_eq_min hle body n fun m hm => hn m (Nat.le_of_lt hm),
      min_eq_left (hn n (Nat.le_refl n))]
  · obtain ⟨c, rest, htext⟩ := List.exists_cons_of_ne_nil
      (show before ++ '$' :: '{' :: body ≠ [] by simp)
    have hstep : ∀ past, LineLexer.step past (.script (.template valid)) c rest =
        template valid 0 (before ++ '$' :: '{' :: body) :=
      fun _ => congrArg (template valid 0) htext.symm
    simpa using cutsOff_template [] htext hstep hleast
  · have hstep : ∀ past, LineLexer.step past (.script .code) '`' (before ++ '$' :: '{' :: body) =
        template true 1 (before ++ '$' :: '{' :: body) := fun _ => rfl
    simpa [spanOf] using cutsOff_template ['`'] rfl hstep hleast

/-- An interpolation of which two braces are open at the start of a line, with a third one on it,
and the text of its template behind it. -/
theorem interpolation_closes_of_nested :
    let depth : Depth := ⟨2, by decide⟩
    0 < depth.val ∧
      tokenize .off "\x7b\x7d\x7da\x7db`".toList 7 (.script (.interpolation depth)) =
        ⟨[⟨.variableName, .script, 7, "\x7b\x7d\x7da\x7d".toList, .empty⟩,
          ⟨.literalBackquote, .script, 12, "b`".toList, .empty⟩], .script .code⟩ := by
  intro depth
  have hpos : 0 < depth.val := by decide
  have hleast : IsLeast (closings depth.val "\x7b\x7d\x7da\x7db`".toList) 4 := by
    have hearlier : ∀ place < 4, place ∉ closings 2 "\x7b\x7d\x7da\x7db`".toList := by decide
    refine ⟨by decide, fun place hplace => Nat.not_lt.1 fun hlt => ?_⟩
    exact hearlier place hlt hplace
  refine ⟨hpos, ?_⟩
  have hleads := (interpolation_closes depth hpos "\x7b\x7d\x7da\x7db`".toList).1.closed 4 hleast
  exact (hleads _ _ [] 7 (.here ..)).trans (by decide +kernel)

end LineLexer.Script
