import LineLexer.Tokenize
import Mathlib.Data.List.FinRange
import Mathlib.Data.List.Nodup

/-!
# The words of states

A word falls into a low byte, a second byte and an upper half. The table of each language gives the
one state that has a code (`ResumeState.ofNumber?_eq_some`), so decoding a word gives a state
exactly if the state can be stored and the word is its own (`decode_eq_ok`). What is reported of any
other word is the first of four faults that it has (`decode_eq_error`). Main statement:
`decode_eq_ok_iff_mem_all`.
-/

namespace LineLexer

/-! ## Tables -/

/-- An element has the place of its offset among the elements. -/
theorem TagKind.getElem?_all {index : Nat} {tag : TagKind} :
    TagKind.all[index]? = some tag ↔ tag.index = index := by
  match index with
  | 0 => cases tag <;> decide
  | 1 => cases tag <;> decide
  | 2 => cases tag <;> decide
  | index + 3 => cases tag <;> simp [TagKind.all, TagKind.index]

/-- The table of markup gives the state that has a code. -/
theorem MarkupState.ofNumber?_eq_some {number : Nat} {state : MarkupState} :
    MarkupState.ofNumber? number = some state ↔ state.number = number := by
  constructor
  · intro h
    -- A range of codes that starts at `base` holds the states of one form, one for each element.
    have hrange : ∀ (base : Nat) (make : TagKind → MarkupState), base ≤ number →
        (∀ tag, (make tag).number = base + tag.index) →
        TagKind.all[number - base]?.map make = some state → state.number = number := by
      intro base make hbase hnumber hmap
      obtain ⟨tag, htag, rfl⟩ := Option.map_eq_some_iff.1 hmap
      have hindex : tag.index = number - base := TagKind.getElem?_all.1 htag
      rw [hnumber, hindex]
      omega
    unfold MarkupState.ofNumber? at h
    split at h
    next hcode => exact hcode ▸ Option.some.inj h ▸ rfl
    split at h
    next => exact hrange 1 .startTag (by omega) (fun _ => rfl) h
    split at h
    next hcode => exact hcode ▸ Option.some.inj h ▸ rfl
    split at h
    next => exact hrange 5 (.attributeValue .double) (by omega) (fun _ => rfl) h
    split at h
    next => exact hrange 8 (.attributeValue .single) (by omega) (fun _ => rfl) h
    split at h
    next hcode => exact hcode ▸ Option.some.inj h ▸ rfl
    split at h
    next hcode => exact hcode ▸ Option.some.inj h ▸ rfl
    split at h
    next hcode => exact hcode ▸ Option.some.inj h ▸ rfl
    next => cases h
  · rintro rfl
    cases state with
    | startTag tag => cases tag <;> rfl
    | attributeValue quote tag => cases quote <;> cases tag <;> rfl
    | content => rfl
    | endTag => rfl
    | comment => rfl
    | doctype => rfl
    | instruction => rfl

/-- The codes of markup use up those below 14. -/
theorem MarkupState.number_lt (state : MarkupState) : state.number < 14 := by
  cases state with
  | startTag tag => cases tag <;> decide
  | attributeValue quote tag => cases quote <;> cases tag <;> decide
  | content => decide
  | endTag => decide
  | comment => decide
  | doctype => decide
  | instruction => decide

/-- Of the eight codes of a block, a context has the one at its offset. -/
theorem StyleContext.ofIndex?_eq_some {index : Nat} {context : StyleContext} :
    StyleContext.ofIndex? index = some context ↔ context.index = index := by
  constructor
  · intro h
    unfold StyleContext.ofIndex? at h
    split at h
    case h_6 => cases h
    all_goals
      cases h
      rfl
  · rintro rfl
    cases context with
    | atRule body => cases body <;> rfl
    | selector => rfl
    | propertyKey => rfl
    | propertyValue => rfl

/-- A context has one of the first five codes of a block. -/
theorem StyleContext.index_lt (context : StyleContext) : context.index < 5 := by
  cases context with
  | atRule body => cases body <;> decide
  | selector => decide
  | propertyKey => decide
  | propertyValue => decide

/-- The table of style sheets gives the state that has a code. -/
theorem StyleState.ofOffset?_eq_some {offset : Nat} {state : StyleState} :
    StyleState.ofOffset? offset = some state ↔
      8 * state.block + state.context.index = offset := by
  have hblock : ∀ {block context}, StyleState.ofBlock? block context = some state ↔
      state.block = block ∧ state.context = context := by
    intro block context
    constructor
    · intro h
      unfold StyleState.ofBlock? at h
      split at h
      case h_5 => cases h
      all_goals
        cases h
        exact ⟨rfl, rfl⟩
    · rintro ⟨rfl, rfl⟩
      cases state with
      | code context => rfl
      | comment context => rfl
      | literal quote context => cases quote <;> rfl
  have hindex := state.context.index_lt
  rw [StyleState.ofOffset?, Option.bind_eq_some_iff]
  simp only [hblock, StyleContext.ofIndex?_eq_some]
  constructor
  · rintro ⟨context, hcontext, hblock, rfl⟩
    omega
  · rintro rfl
    exact ⟨state.context, by omega, by omega, rfl⟩

/-- A construct of a style sheet has one of four blocks. -/
theorem StyleState.block_lt (state : StyleState) : state.block < 4 := by
  cases state with
  | code context => exact Nat.succ_pos 3
  | comment context => exact Nat.lt_of_sub_eq_succ rfl
  | literal quote context => cases quote <;> exact Nat.lt_of_sub_eq_succ rfl

/-- The table of scripts gives the state that has a code, and a depth only to interpolations. -/
theorem ScriptState.ofNumber?_eq_some {number : Nat} {depth : Depth} {state : ScriptState}
    (hnumber : 128 ≤ number) :
    ScriptState.ofNumber? number depth = some state ↔
      state.number = number ∧ ∀ inner, state = .interpolation inner → inner = depth := by
  constructor
  · intro h
    -- A pair of codes that starts at an even `base` holds a construct, valid and malformed.
    have hpair : ∀ (base : Nat) (make : Bool → ScriptState), base % 2 = 0 → base ≤ number →
        number < base + 2 → (∀ valid, (make valid).number = base + validityIndex valid) →
        make ((number - 128) % 2 == 0) = state → state.number = number := by
      rintro base make heven hlow hhigh hmake rfl
      rw [hmake, validityIndex]
      split
      next hvalid =>
        rw [beq_iff_eq] at hvalid
        omega
      next hvalid =>
        rw [beq_iff_eq] at hvalid
        omega
    unfold ScriptState.ofNumber? at h
    split at h
    next hcode =>
      cases h
      exact ⟨hcode.symm, fun _ h => nomatch h⟩
    split at h
    next hcode =>
      cases h
      exact ⟨hcode.symm, fun _ h => nomatch h⟩
    split at h
    next =>
      have hmake := Option.some.inj h
      refine ⟨hpair 130 (.literal .double) rfl (by omega) (by omega) (fun _ => rfl) hmake, ?_⟩
      exact hmake ▸ fun _ h => nomatch h
    split at h
    next =>
      have hmake := Option.some.inj h
      refine ⟨hpair 132 (.literal .single) rfl (by omega) (by omega) (fun _ => rfl) hmake, ?_⟩
      exact hmake ▸ fun _ h => nomatch h
    split at h
    next =>
      have hmake := Option.some.inj h
      refine ⟨hpair 134 .template rfl (by omega) (by omega) (fun _ => rfl) hmake, ?_⟩
      exact hmake ▸ fun _ h => nomatch h
    split at h
    next hcode =>
      cases h
      exact ⟨hcode.symm, fun _ h => (ScriptState.interpolation.inj h).symm⟩
    next => cases h
  · rintro ⟨rfl, hdepth⟩
    cases state with
    | interpolation inner => exact hdepth inner rfl ▸ rfl
    | literal quote valid => cases quote <;> cases valid <;> rfl
    | template valid => cases valid <;> rfl
    | code => rfl
    | comment => rfl

/-- The codes of scripts go from 128 to 136. -/
theorem ScriptState.number_bounds (state : ScriptState) :
    128 ≤ state.number ∧ state.number ≤ 136 := by
  cases state with
  | literal quote valid => cases quote <;> cases valid <;> decide
  | template valid => cases valid <;> decide
  | code => decide
  | comment => decide
  | interpolation depth => simp only [ScriptState.number]; decide

namespace ResumeState

/-- The table of all languages gives the state that has a code, and a depth only to
interpolations. -/
theorem ofNumber?_eq_some {number : Nat} {depth : Depth} {state : ResumeState} :
    ofNumber? number depth = some state ↔
      state.number = number ∧ ∀ inner, state = .script (.interpolation inner) → inner = depth := by
  unfold ofNumber?
  -- The codes of each language have a range of their own, which decides what table is asked.
  cases state with
  | markup state =>
    have hlt := state.number_lt
    have hnumber : (markup state).number = state.number := rfl
    rw [hnumber]
    constructor
    · intro h
      split at h
      next =>
        obtain ⟨_, hstate, ⟨⟩⟩ := Option.map_eq_some_iff.1 h
        exact ⟨MarkupState.ofNumber?_eq_some.1 hstate, fun _ h => nomatch h⟩
      split at h
      all_goals
        obtain ⟨_, -, hstate⟩ := Option.map_eq_some_iff.1 h
        cases hstate
    · rintro ⟨rfl, -⟩
      rw [if_pos (by omega), MarkupState.ofNumber?_eq_some.2 rfl]
      rfl
  | style state =>
    have hblock := state.block_lt
    have hindex := state.context.index_lt
    have hnumber : (style state).number = 64 + 8 * state.block + state.context.index := rfl
    rw [hnumber]
    constructor
    · intro h
      split at h
      next =>
        obtain ⟨_, -, hstate⟩ := Option.map_eq_some_iff.1 h
        cases hstate
      split at h
      next =>
        obtain ⟨_, hstate, ⟨⟩⟩ := Option.map_eq_some_iff.1 h
        have hoffset := StyleState.ofOffset?_eq_some.1 hstate
        exact ⟨by omega, fun _ h => nomatch h⟩
      next =>
        obtain ⟨_, -, hstate⟩ := Option.map_eq_some_iff.1 h
        cases hstate
    · rintro ⟨rfl, -⟩
      rw [if_neg (by omega), if_pos (by omega), StyleState.ofOffset?_eq_some.2
        (show 8 * state.block + state.context.index = _ by omega)]
      rfl
  | script state =>
    obtain ⟨hlow, hhigh⟩ := state.number_bounds
    have hnumber : (script state).number = state.number := rfl
    have hinner : (∀ inner, script state = script (.interpolation inner) → inner = depth) ↔
        ∀ inner, state = .interpolation inner → inner = depth := by
      simp only [script.injEq]
    rw [hnumber, hinner]
    constructor
    · intro h
      split at h
      next =>
        obtain ⟨_, -, hstate⟩ := Option.map_eq_some_iff.1 h
        cases hstate
      split at h
      next =>
        obtain ⟨_, -, hstate⟩ := Option.map_eq_some_iff.1 h
        cases hstate
      next =>
        obtain ⟨_, hstate, ⟨⟩⟩ := Option.map_eq_some_iff.1 h
        exact (ScriptState.ofNumber?_eq_some (by omega)).1 hstate
    · intro h
      rw [if_neg (by omega), if_neg (by omega), (ScriptState.ofNumber?_eq_some (by omega)).2 h]
      rfl

/-! ## Words -/

/-- A code is a byte. -/
theorem number_lt (state : ResumeState) : state.number < 256 := by
  cases state with
  | markup state => exact Nat.lt_trans state.number_lt (by decide)
  | style state =>
    have hblock := state.block_lt
    have hindex := state.context.index_lt
    simp only [number]
    omega
  | script state => exact Nat.lt_of_le_of_lt state.number_bounds.2 (by decide)

/-- A state that has a depth is an interpolation. -/
theorem exists_of_hasDepth {state : ResumeState} (h : state.hasDepth = true) :
    ∃ depth, state = .script (.interpolation depth) := by
  unfold hasDepth at h
  split at h
  next depth => exact ⟨depth, rfl⟩
  next => cases h

/-- Only interpolations have their code. -/
theorem hasDepth_of_number {state : ResumeState}
    (h : state.number = (script (.interpolation 0)).number) : state.hasDepth = true := by
  have hcode : (script (.interpolation 0)).number = 136 := rfl
  rw [hcode] at h
  cases state with
  | markup state =>
    have hlt : (markup state).number < 14 := state.number_lt
    omega
  | style state =>
    have hblock := state.block_lt
    have hindex := state.context.index_lt
    simp only [number] at h
    omega
  | script state =>
    cases state with
    | interpolation depth => rfl
    | literal quote valid => cases quote <;> cases valid <;> cases h
    | template valid => cases valid <;> cases h
    | code => cases h
    | comment => cases h

/-- The second byte of a state without a depth is zero. -/
theorem depthByte_of_hasDepth_eq_false {state : ResumeState} (h : state.hasDepth = false) :
    state.depthByte = 0 := by
  unfold depthByte
  split
  next => cases h
  next => rfl

/-- The second byte of a word is a byte. -/
theorem depthByte_lt (state : ResumeState) : state.depthByte < 256 := by
  unfold depthByte
  split
  next depth => exact depth.isLt
  next => decide

/-- A word is that of a state if its low byte is the code, its second byte the depth, and its upper
half zero. -/
theorem encode_eq_iff {state : ResumeState} {raw : UInt32} :
    state.encode = raw ↔ raw.toNat % 256 = state.number ∧ raw.toNat / 256 = state.depthByte := by
  have hnumber := state.number_lt
  have hdepth := state.depthByte_lt
  have hsize : state.number + 256 * state.depthByte < 2 ^ 32 := by omega
  have hword : state.encode = raw ↔ state.number + 256 * state.depthByte = raw.toNat := by
    rw [← UInt32.toNat_inj, encode, UInt32.toNat_ofNat_of_lt' hsize]
  rw [hword]
  omega

/-- No word is that of two states. -/
theorem encode_injective : Function.Injective encode := by
  intro state other h
  obtain ⟨hnumber, hdepth⟩ := encode_eq_iff.1 h
  obtain ⟨hnumber', hdepth'⟩ := encode_eq_iff.1 (rfl : other.encode = other.encode)
  -- Both states are in the table at the same place.
  have hplace : ∀ place : ResumeState,
      ofNumber? place.number (Depth.ofByte place.depthByte) = some place := by
    intro place
    refine ofNumber?_eq_some.2 ⟨rfl, ?_⟩
    rintro inner rfl
    exact Fin.ext (Nat.mod_eq_of_lt inner.isLt).symm
  have hstate := hplace state
  rw [← hnumber, ← hdepth, hnumber', hdepth', hplace other] at hstate
  exact (Option.some.inj hstate).symm

end ResumeState

/-! ## All states -/

/-- Every state of markup is listed. -/
theorem MarkupState.mem_all (state : MarkupState) : state ∈ MarkupState.all :=
  List.mem_filterMap.2 ⟨state.number, List.mem_range.2 state.number_lt,
    MarkupState.ofNumber?_eq_some.2 rfl⟩

/-- Every context of a style sheet is listed. -/
theorem StyleContext.mem_all (context : StyleContext) : context ∈ StyleContext.all := by
  cases context with
  | atRule body => cases body <;> decide
  | selector => decide
  | propertyKey => decide
  | propertyValue => decide

/-- Every state of a style sheet is listed. -/
theorem StyleState.mem_all (state : StyleState) : state ∈ StyleState.all := by
  have hmap : ∀ (make : StyleContext → StyleState) (context : StyleContext),
      make ∈ [StyleState.code, .comment, .literal .double, .literal .single] →
        make context ∈ StyleState.all := fun make context hmake =>
    List.mem_flatMap.2 ⟨make, hmake, List.mem_map_of_mem context.mem_all⟩
  cases state with
  | code context => exact hmap .code context (by simp)
  | comment context => exact hmap .comment context (by simp)
  | literal quote context => cases quote <;> exact hmap (.literal _) context (by simp)

/-- A depth can be stored if it is not zero. -/
theorem Depth.mem_positive {depth : Depth} : depth ∈ Depth.positive ↔ depth ≠ 0 := by
  have htail : Depth.positive = (List.finRange 255).map Fin.succ := by
    rw [Depth.positive, List.finRange_succ, List.tail_cons]
  rw [htail, List.mem_map]
  constructor
  · rintro ⟨depth, -, rfl⟩
    exact Fin.succ_ne_zero depth
  · intro h
    exact ⟨depth.pred h, List.mem_finRange _, Fin.succ_pred depth h⟩

/-- Every state of a script is listed but the interpolation without an open brace. -/
theorem ScriptState.mem_all {state : ScriptState} :
    state ∈ ScriptState.all ↔ state ≠ .interpolation 0 := by
  rw [ScriptState.all, List.mem_append, List.mem_map]
  simp only [Depth.mem_positive]
  cases state with
  | interpolation depth => simp [ScriptState.plain]
  | literal quote valid => cases quote <;> cases valid <;> simp [ScriptState.plain]
  | template valid => cases valid <;> simp [ScriptState.plain]
  | code => simp [ScriptState.plain]
  | comment => simp [ScriptState.plain]

namespace ResumeState

/-- Every state is listed but the interpolation without an open brace. -/
theorem mem_all {state : ResumeState} :
    state ∈ ResumeState.all ↔ state ≠ .script (.interpolation 0) := by
  rw [ResumeState.all, List.mem_append, List.mem_append]
  cases state with
  | markup state => simp [state.mem_all]
  | style state => simp [state.mem_all]
  | script state => simp [ScriptState.mem_all]

/-- No state is listed twice. -/
theorem nodup_all : ResumeState.all.Nodup := by
  have hscript : ScriptState.all.Nodup := by
    have hpositive : (Depth.positive.map ScriptState.interpolation).Nodup :=
      ((List.nodup_finRange 256).tail).map fun _ _ h => ScriptState.interpolation.inj h
    refine List.nodup_append.2 ⟨by decide, hpositive, ?_⟩
    rintro _ hplain _ hmap rfl
    obtain ⟨depth, -, rfl⟩ := List.mem_map.1 hmap
    simp [ScriptState.plain] at hplain
  have hmarkup : (MarkupState.all.map markup).Nodup :=
    (show MarkupState.all.Nodup by decide).map fun _ _ h => ResumeState.markup.inj h
  have hstyle : (StyleState.all.map style).Nodup :=
    (show StyleState.all.Nodup by decide).map fun _ _ h => ResumeState.style.inj h
  have hscripts : (ScriptState.all.map script).Nodup :=
    hscript.map fun _ _ h => ResumeState.script.inj h
  rw [ResumeState.all, List.append_assoc]
  refine List.nodup_append.2 ⟨hmarkup, List.nodup_append.2 ⟨hstyle, hscripts, ?_⟩, ?_⟩
  -- States of two languages are different.
  · intro first hfirst second hsecond heq
    obtain ⟨_, -, rfl⟩ := List.mem_map.1 hfirst
    obtain ⟨_, -, rfl⟩ := List.mem_map.1 hsecond
    cases heq
  · intro first hfirst second hsecond heq
    obtain ⟨_, -, rfl⟩ := List.mem_map.1 hfirst
    rcases List.mem_append.1 hsecond with hsecond | hsecond
    all_goals
      obtain ⟨_, -, rfl⟩ := List.mem_map.1 hsecond
      cases heq

/-! ## Decoding -/

/-- The faults of a word, each without those that are reported before it. -/
inductive HasFault (raw : UInt32) : StateFault → Prop
  /-- A bit of the upper half is set. -/
  | upperHalf (bit : Nat) (hbit : 15 < bit) (hset : raw.toNat.testBit bit = true) :
    HasFault raw (.strayBits raw)
  /-- The low byte is no code. -/
  | code (hupper : ∀ bit, 15 < bit → raw.toNat.testBit bit = false)
    (hcode : ∀ state : ResumeState, state.number ≠ raw.toNat % 256) :
    HasFault raw (.unknownCode raw (raw.toNat % 256))
  /-- The low byte is the code of interpolations, and the second byte is zero. -/
  | depth (hupper : ∀ bit, 15 < bit → raw.toNat.testBit bit = false)
    (hcode : (script (.interpolation 0)).number = raw.toNat % 256)
    (hdepth : raw.toNat / 256 % 256 = 0) : HasFault raw (.zeroDepth raw)
  /-- The low byte is another code, and the second byte is not zero. -/
  | secondByte (hupper : ∀ bit, 15 < bit → raw.toNat.testBit bit = false)
    (state : ResumeState) (hcode : state.number = raw.toNat % 256)
    (hstate : ∀ depth, state ≠ script (.interpolation depth))
    (hdepth : raw.toNat / 256 % 256 ≠ 0) : HasFault raw (.strayBits raw)

/-- No bit of the upper half is set exactly if the upper half is zero. -/
theorem upperHalf_eq_zero_iff {raw : UInt32} :
    (∀ bit, 15 < bit → raw.toNat.testBit bit = false) ↔ raw.toNat / 65536 = 0 := by
  constructor
  · intro h
    have hlt : raw.toNat < 2 ^ 16 := Nat.lt_pow_two_of_testBit raw.toNat fun bit hbit => h bit hbit
    omega
  · intro h bit hbit
    have hlt : raw.toNat < 2 ^ bit := by
      have hpow : 2 ^ 16 ≤ 2 ^ bit := Nat.pow_le_pow_right (by decide) hbit
      omega
    exact Nat.testBit_lt_two_pow hlt

/-- A code that a state has is in the table with every second byte. -/
theorem isSome_ofNumber? (state : ResumeState) (depth : Depth) :
    (ofNumber? state.number depth).isSome := by
  cases hdepth : state.hasDepth with
  | true =>
    obtain ⟨inner, rfl⟩ := exists_of_hasDepth hdepth
    rfl
  | false =>
    rw [ofNumber?_eq_some.2 ⟨rfl, fun inner hinner => ?_⟩]
    · rfl
    · subst hinner
      cases hdepth

/-- What decoding a word gives: the fault that is reported first, or the state whose word it is. -/
theorem decode_cases (raw : UInt32) :
    (∃ fault, HasFault raw fault ∧ decode raw = .error fault) ∨
      ∃ state ∈ ResumeState.all, state.encode = raw ∧ decode raw = .ok state := by
  have hbyte : (Depth.ofByte (raw.toNat / 256)).val = raw.toNat / 256 % 256 := rfl
  -- The tests come in the order of the faults, and a word that passes them all is that of a listed
  -- state.
  unfold decode
  by_cases hupper : raw.toNat / 65536 = 0
  · have hbits := upperHalf_eq_zero_iff.2 hupper
    rw [if_neg (not_not.2 hupper)]
    generalize Depth.ofByte (raw.toNat / 256) = depth at hbyte ⊢
    cases hfound : ofNumber? (raw.toNat % 256) depth with
    | none =>
      -- A state with this code would be in the table.
      refine .inl ⟨_, .code hbits fun state hcode => ?_, rfl⟩
      have hsome := state.isSome_ofNumber? depth
      rw [hcode, hfound] at hsome
      cases hsome
    | some state =>
      obtain ⟨hnumber, hinner⟩ := ofNumber?_eq_some.1 hfound
      dsimp only
      cases hdepth : state.hasDepth with
      | true =>
        obtain ⟨inner, rfl⟩ := exists_of_hasDepth hdepth
        obtain rfl := hinner inner rfl
        rw [if_pos rfl]
        by_cases hzero : inner.val = 0
        · rw [if_pos hzero]
          exact .inl ⟨_, .depth hbits hnumber (by omega), rfl⟩
        · rw [if_neg hzero]
          refine .inr ⟨_, mem_all.2 fun h => ?_, encode_eq_iff.2 ⟨hnumber.symm, ?_⟩, rfl⟩
          · cases h
            exact hzero rfl
          · simp only [depthByte]
            omega
      | false =>
        have hplain : ∀ inner, state ≠ script (.interpolation inner) := by
          rintro inner rfl
          cases hdepth
        rw [if_neg (by decide)]
        by_cases hzero : depth.val = 0
        · rw [if_neg (not_not.2 hzero)]
          refine .inr ⟨_, mem_all.2 (hplain 0), encode_eq_iff.2 ⟨hnumber.symm, ?_⟩, rfl⟩
          rw [depthByte_of_hasDepth_eq_false hdepth]
          omega
        · rw [if_pos hzero]
          exact .inl ⟨_, .secondByte hbits state hnumber hplain (by omega), rfl⟩
  · -- A bit of the upper half is set.
    rw [if_pos hupper]
    have hset := mt upperHalf_eq_zero_iff.1 hupper
    push Not at hset
    obtain ⟨bit, hbit, hset⟩ := hset
    exact .inl ⟨_, .upperHalf bit hbit (by simpa using hset), rfl⟩

/-- A word has one fault that is reported. -/
theorem HasFault.unique {raw : UInt32} {fault other : StateFault} (h : HasFault raw fault)
    (hother : HasFault raw other) : fault = other := by
  -- The upper half of a word is clear or not.
  have hclear : ∀ {bit}, 15 < bit → raw.toNat.testBit bit = true →
      ¬∀ bit, 15 < bit → raw.toNat.testBit bit = false := by
    intro bit hbit hset hupper
    rw [hupper bit hbit] at hset
    cases hset
  cases h with
  | upperHalf bit hbit hset =>
    cases hother with
    | upperHalf => rfl
    | code hupper => exact absurd hupper (hclear hbit hset)
    | depth hupper => exact absurd hupper (hclear hbit hset)
    | secondByte => rfl
  | code hupper hcode =>
    cases hother with
    | upperHalf bit hbit hset => exact absurd hupper (hclear hbit hset)
    | code => rfl
    | depth _ hnumber => exact absurd hnumber (hcode _)
    | secondByte _ state hnumber => exact absurd hnumber (hcode state)
  | depth hupper hnumber hdepth =>
    cases hother with
    | upperHalf bit hbit hset => exact absurd hupper (hclear hbit hset)
    | code _ hcode => exact absurd hnumber (hcode _)
    | depth => rfl
    | secondByte _ _ _ _ hne => exact absurd hdepth hne
  | secondByte hupper state hnumber hplain hne =>
    cases hother with
    | upperHalf => rfl
    | code _ hcode => exact absurd hnumber (hcode state)
    | depth _ _ hdepth => exact absurd hdepth hne
    | secondByte => rfl

/-- The word of a listed state has no fault. -/
theorem not_hasFault_encode {state : ResumeState} (h : state ∈ ResumeState.all)
    (fault : StateFault) : ¬HasFault state.encode fault := by
  have hne := mem_all.1 h
  have hlt := state.depthByte_lt
  obtain ⟨hnumber, hbyte⟩ := encode_eq_iff.1 (rfl : state.encode = state.encode)
  generalize state.encode = raw at hnumber hbyte ⊢
  intro hfault
  cases hfault with
  | upperHalf bit hbit hset =>
    have hclear := upperHalf_eq_zero_iff.2 (show raw.toNat / 65536 = 0 by omega) bit hbit
    rw [hset] at hclear
    cases hclear
  | code hupper hcode => exact hcode state hnumber.symm
  | depth hupper hcode hdepth =>
    -- The interpolation without an open brace is not listed.
    obtain ⟨inner, rfl⟩ := exists_of_hasDepth (hasDepth_of_number (hnumber.symm.trans hcode.symm))
    refine hne ?_
    have hinner : inner = 0 := Fin.ext (by simp only [depthByte] at hbyte; simp; omega)
    rw [hinner]
  | secondByte hupper other hcode hother hdepth =>
    -- A state that has the code of another state has a depth if that one does.
    cases hstate : state.hasDepth with
    | true =>
      obtain ⟨inner, rfl⟩ := exists_of_hasDepth hstate
      obtain ⟨depth, hdepth⟩ := exists_of_hasDepth (hasDepth_of_number (hcode.trans hnumber))
      exact hother depth hdepth
    | false =>
      rw [depthByte_of_hasDepth_eq_false hstate] at hbyte
      omega

/-- A word is decoded to a state exactly if the state is listed and the word is its own. -/
theorem decode_eq_ok {raw : UInt32} {state : ResumeState} :
    decode raw = .ok state ↔ state ∈ ResumeState.all ∧ state.encode = raw := by
  constructor
  · intro h
    rcases decode_cases raw with ⟨fault, -, hfault⟩ | ⟨found, hmem, hencode, hfound⟩
    · rw [h] at hfault
      cases hfault
    · rw [h] at hfound
      cases hfound
      exact ⟨hmem, hencode⟩
  · rintro ⟨hmem, rfl⟩
    rcases decode_cases state.encode with ⟨fault, hfault, -⟩ | ⟨found, -, hencode, hfound⟩
    · exact absurd hfault (not_hasFault_encode hmem fault)
    · rw [hfound, encode_injective hencode]

/-- A word is refused exactly with the fault that it has before others. -/
theorem decode_eq_error {raw : UInt32} {fault : StateFault} :
    decode raw = .error fault ↔ HasFault raw fault := by
  constructor
  · intro h
    rcases decode_cases raw with ⟨other, hother, hfault⟩ | ⟨state, -, -, hstate⟩
    · rw [h] at hfault
      cases hfault
      exact hother
    · rw [h] at hstate
      cases hstate
  · intro h
    rcases decode_cases raw with ⟨other, hother, hfault⟩ | ⟨state, hmem, rfl, -⟩
    · rw [hfault, h.unique hother]
    · exact absurd h (not_hasFault_encode hmem fault)

end ResumeState

/-- States and words correspond: a word is decoded to a state exactly if the state is listed and the
word is its own, the list holds every state once but the interpolation without an open brace, and
any other word is refused with the first fault that it has. So a line that starts in the word of a
listed state is the line that starts in the state. -/
theorem decode_eq_ok_iff_mem_all :
    (∀ raw state, ResumeState.decode raw = .ok state ↔
      state ∈ ResumeState.all ∧ state.encode = raw) ∧
    (ResumeState.all.Nodup ∧
      ∀ state, state ∈ ResumeState.all ↔ state ≠ .script (.interpolation 0)) ∧
    (∀ raw fault, ResumeState.decode raw = .error fault ↔ ResumeState.HasFault raw fault) ∧
    ∀ state ∈ ResumeState.all, ∀ scope line offset,
      tokenizeWord scope line offset state.encode = .ok (tokenize scope line offset state) := by
  refine ⟨fun raw state => ResumeState.decode_eq_ok,
    ⟨ResumeState.nodup_all, fun state => ResumeState.mem_all⟩,
    fun raw fault => ResumeState.decode_eq_error, ?_⟩
  intro state hstate scope line offset
  have hdecode : ResumeState.decode state.encode = .ok state :=
    ResumeState.decode_eq_ok.2 ⟨hstate, rfl⟩
  rw [tokenizeWord, hdecode]
  rfl

end LineLexer
