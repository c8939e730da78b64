import LineLexer.Proofs.Scan.Reach

/-!
# What is lexed next

A statement on what a state makes of a text is a statement on every line that comes to it: the line
may have started in any state, and other tokens may stand before (`CutsOff`). A move that does not
look back decides what its state cuts off (`cutsOff_of_step`), so it is enough to know the move.
What is left is lexed in the next state, and if that does not look back either, as it would be on a
line of its own (`LeadsTo`).
-/

namespace LineLexer

/-- Wherever the lexing of a line stands before a text in a state, the next tokens are those of some
spans, and what they leave of the text is lexed in the next state. -/
def CutsOff (scope : LinkScope) (here : ResumeState) (text : Text) (cut : List Span)
    (next : ResumeState) : Prop :=
  ∀ start line spans base, Reaches .start start line spans here text →
    Reaches .start start line (spans ++ cut) next (text.drop (spelled cut).length) ∧
    ∃ more, (tokenize scope line base start).tokens =
        placeFrom base (spans.flatMap (Span.split scope)) ++
          placeFrom (base + byteLength (spelled spans)) cut ++ more ∧
      (text.drop (spelled cut).length = [] →
        more = [] ∧ (tokenize scope line base start).finish = next)

/-- Wherever the lexing of a line stands before a text in a state, the next tokens are those of some
spans, and the tokens behind them are those of what they leave as a line of its own. -/
def LeadsTo (scope : LinkScope) (here : ResumeState) (text : Text) (cut : List Span)
    (next : ResumeState) : Prop :=
  ∀ start line spans base, Reaches .start start line spans here text →
    let offset := base + byteLength (spelled spans)
    let more := tokenize scope (text.drop (spelled cut).length)
      (offset + byteLength (spelled cut)) next
    tokenize scope line base start =
      ⟨placeFrom base (spans.flatMap (Span.split scope)) ++ placeFrom offset cut ++ more.tokens,
        more.finish⟩

/-- Spans that are not searched for links are not split. -/
theorem flatMap_split_of_not_appliesTo {scope : LinkScope} {spans : List Span}
    (h : ∀ span ∈ spans, scope.appliesTo span.kind = false) :
    spans.flatMap (Span.split scope) = spans := by
  induction spans with
  | nil => rfl
  | cons span spans ih =>
    have hspan : span.split scope = [span] := by
      simp [Span.split, h span List.mem_cons_self]
    rw [List.flatMap_cons, hspan, ih fun other hother => h other (List.mem_cons_of_mem _ hother)]
    rfl

section

variable {here next : ResumeState} {c : Char} {rest : Text}

/-- A state cuts off what its move carves, whatever is recalled of the line before. -/
theorem cutsOff_of_step (scope : LinkScope) {pieces : List Piece}
    (hstep : ∀ past, step past here c rest = ⟨pieces, next⟩)
    (hscope : ∀ span ∈ carve pieces (c :: rest), scope.appliesTo span.kind = false) :
    CutsOff scope here (c :: rest) (carve pieces (c :: rest)) next := by
  intro start line spans base hreach
  have hmove := Reaches.step (spans.foldl Recall.note .start) here c rest
  have hdrop : (c :: rest).drop (spelled (carve pieces (c :: rest))).length =
      (c :: rest).drop (totalWidth pieces) := by
    rw [spelled_carve, List.length_take, List.drop_eq_drop_iff]
    omega
  rw [hstep] at hmove
  have hthere := hreach.trans hmove
  rw [hdrop]
  refine ⟨hthere, ?_⟩
  simp only [tokenize, hthere.scan_eq, List.flatMap_append, placeFrom_append,
    Span.spelled_flatMap_split, flatMap_split_of_not_appliesTo hscope]
  refine ⟨_, rfl, fun hleft => ?_⟩
  have hnil : (c :: rest).drop (Move.mk pieces next).width = [] := hleft
  rw [hnil, scan_nil]
  exact ⟨rfl, rfl⟩

/-- A state cuts off the one piece that its move takes. -/
theorem cutsOff_of_step_singleton (scope : LinkScope) {kind : Kind} {language : Language}
    {flags : Flags} {width : Nat}
    (hstep : ∀ past, step past here c rest = ⟨[⟨kind, width, language, flags⟩], next⟩)
    (hwidth : 0 < width) (hscope : scope.appliesTo kind = false) :
    CutsOff scope here (c :: rest) [⟨kind, language, (c :: rest).take width, flags⟩] next := by
  have hcarve : carve [⟨kind, width, language, flags⟩] (c :: rest) =
      [⟨kind, language, (c :: rest).take width, flags⟩] :=
    carve_singleton hwidth (List.cons_ne_nil c rest)
  have h := cutsOff_of_step scope hstep
  rw [hcarve] at h
  refine h fun span hspan => ?_
  rw [List.mem_singleton.1 hspan]
  exact hscope

/-- At the end of a line nothing is cut off. -/
theorem cutsOff_nil (scope : LinkScope) (here : ResumeState) : CutsOff scope here [] [] here := by
  intro start line spans base hreach
  refine ⟨by simpa using hreach, [], ?_, fun _ => ⟨rfl, ?_⟩⟩
  · simp [tokenize, hreach.scan_eq, placeFrom]
  · simp [tokenize, hreach.scan_eq]

/-- If the next state does not look back, what is left is lexed as a line of its own. -/
theorem CutsOff.leadsTo {scope : LinkScope} {text : Text} {cut : List Span}
    (h : CutsOff scope here text cut next)
    (hscope : ∀ span ∈ cut, scope.appliesTo span.kind = false)
    (hnext : ∀ past other text, scan past next text = scan other next text) :
    LeadsTo scope here text cut next := by
  intro start line spans base hreach
  have hthere := (h start line spans base hreach).1
  simp only [tokenize, hthere.scan_eq, List.flatMap_append, placeFrom_append, spelled_append,
    byteLength_append, Span.spelled_flatMap_split, flatMap_split_of_not_appliesTo hscope,
    Nat.add_assoc, hnext _ .start]

end

end LineLexer
