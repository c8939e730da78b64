import LineLexer.Cursor

/-!
# Boundaries between characters

A byte position of a text is a boundary if the text splits there into a head that takes so many
bytes and a rest. `dropBytes?` and `takeBytes?` succeed exactly at boundaries (`dropBytes?_eq_some`,
`takeBytes?_eq_some`), and so does `slice?`, which cuts out what lies between two of them
(`isSome_slice?_iff`).
-/

namespace LineLexer

/-- The part of a text between two byte positions, if both are boundaries in order. -/
def slice? (line : Text) (start stop : Nat) : Option Text :=
  if start ≤ stop then (dropBytes? start line).bind (takeBytes? (stop - start)) else none

/-- A byte position is a boundary if some head of the text takes so many bytes. -/
def IsBoundary (line : Text) (pos : Nat) : Prop :=
  ∃ head rest, line = head ++ rest ∧ byteLength head = pos

/-- A text of no bytes is empty. -/
theorem byteLength_eq_zero {text : Text} : byteLength text = 0 ↔ text = [] := by
  cases text with
  | nil => simp
  | cons c rest =>
    have := c.utf8Size_pos
    simp only [byteLength_cons, reduceCtorEq, iff_false]
    omega

/-- A text takes at least one byte for each character. -/
theorem length_le_byteLength (text : Text) : text.length ≤ byteLength text := by
  induction text with
  | nil => exact Nat.le_refl 0
  | cons c rest ih =>
    have := c.utf8Size_pos
    simp only [List.length_cons, byteLength_cons]
    omega

/-- More characters take no fewer bytes. -/
theorem byteLength_take_le (text : Text) {m n : Nat} (h : m ≤ n) :
    byteLength (text.take m) ≤ byteLength (text.take n) := by
  obtain ⟨k, rfl⟩ := Nat.exists_eq_add_of_le h
  rw [List.take_add, byteLength_append]
  exact Nat.le_add_right ..

/-- Dropping the bytes of a head leaves the rest. -/
theorem dropBytes?_append (head rest : Text) :
    dropBytes? (byteLength head) (head ++ rest) = some rest := by
  induction head with
  | nil => simp [dropBytes?]
  | cons c head ih =>
    have := c.utf8Size_pos
    obtain ⟨n, hn⟩ : ∃ n, byteLength (c :: head) = n + 1 :=
      Nat.exists_eq_succ_of_ne_zero (by simp only [byteLength_cons]; omega)
    have hle : c.utf8Size ≤ n + 1 := by
      rw [← hn, byteLength_cons]
      omega
    rw [hn, List.cons_append, dropBytes?, if_pos hle, ← hn, byteLength_cons,
      Nat.add_sub_cancel_left]
    exact ih

/-- Bytes can be dropped exactly if they are those of a head. -/
theorem dropBytes?_eq_some {n : Nat} {text rest : Text} :
    dropBytes? n text = some rest ↔ ∃ head, text = head ++ rest ∧ byteLength head = n := by
  constructor
  · intro h
    fun_induction dropBytes? n text with
    | case1 text =>
      cases h
      exact ⟨[], rfl, rfl⟩
    | case2 => cases h
    | case3 n c text hle ih =>
      obtain ⟨head, rfl, hlen⟩ := ih h
      refine ⟨c :: head, rfl, ?_⟩
      rw [byteLength_cons, hlen]
      omega
    | case4 => cases h
  · rintro ⟨head, rfl, rfl⟩
    exact dropBytes?_append head rest

/-- Taking the bytes of a head gives the head. -/
theorem takeBytes?_append (head rest : Text) :
    takeBytes? (byteLength head) (head ++ rest) = some head := by
  induction head with
  | nil => simp [takeBytes?]
  | cons c head ih =>
    have := c.utf8Size_pos
    obtain ⟨n, hn⟩ : ∃ n, byteLength (c :: head) = n + 1 :=
      Nat.exists_eq_succ_of_ne_zero (by simp only [byteLength_cons]; omega)
    have hle : c.utf8Size ≤ n + 1 := by
      rw [← hn, byteLength_cons]
      omega
    rw [hn, List.cons_append, takeBytes?, if_pos hle, ← hn, byteLength_cons,
      Nat.add_sub_cancel_left, ih]
    rfl

/-- Bytes can be taken exactly if they are those of a head. -/
theorem takeBytes?_eq_some {n : Nat} {text head : Text} :
    takeBytes? n text = some head ↔ ∃ rest, text = head ++ rest ∧ byteLength head = n := by
  constructor
  · intro h
    fun_induction takeBytes? n text generalizing head with
    | case1 text =>
      cases h
      exact ⟨text, rfl, rfl⟩
    | case2 => cases h
    | case3 n c text hle ih =>
      obtain ⟨tail, ht, rfl⟩ := Option.map_eq_some_iff.1 h
      obtain ⟨rest, rfl, hlen⟩ := ih ht
      refine ⟨rest, rfl, ?_⟩
      rw [byteLength_cons, hlen]
      omega
    | case4 => cases h
  · rintro ⟨rest, rfl, rfl⟩
    exact takeBytes?_append head rest

/-- A slice succeeds exactly if the text falls into three parts of which it is the middle one. -/
theorem slice?_eq_some {line part : Text} {start stop : Nat} :
    slice? line start stop = some part ↔
      ∃ head rest, line = head ++ part ++ rest ∧ byteLength head = start ∧
        start + byteLength part = stop := by
  unfold slice?
  constructor
  · intro h
    split at h
    next hle =>
      obtain ⟨tail, hd, ht⟩ := Option.bind_eq_some_iff.1 h
      obtain ⟨head, rfl, rfl⟩ := dropBytes?_eq_some.1 hd
      obtain ⟨rest, rfl, hlen⟩ := takeBytes?_eq_some.1 ht
      exact ⟨head, rest, (List.append_assoc ..).symm, rfl, by omega⟩
    next => cases h
  · rintro ⟨head, rest, rfl, rfl, rfl⟩
    rw [if_pos (Nat.le_add_right ..), List.append_assoc, dropBytes?_append, Option.bind_some,
      Nat.add_sub_cancel_left, takeBytes?_append]

/-- Dropping bytes succeeds exactly at boundaries. -/
theorem isSome_dropBytes?_iff {line : Text} {pos : Nat} :
    (dropBytes? pos line).isSome ↔ IsBoundary line pos := by
  rw [Option.isSome_iff_exists]
  constructor
  · rintro ⟨rest, h⟩
    obtain ⟨head, hl, hp⟩ := dropBytes?_eq_some.1 h
    exact ⟨head, rest, hl, hp⟩
  · rintro ⟨head, rest, rfl, rfl⟩
    exact ⟨rest, dropBytes?_append head rest⟩

/-- A boundary lies within the text. -/
theorem IsBoundary.le {line : Text} {pos : Nat} (h : IsBoundary line pos) :
    pos ≤ byteLength line := by
  obtain ⟨head, rest, rfl, rfl⟩ := h
  simp

/-- A slice succeeds exactly between two boundaries in order. -/
theorem isSome_slice?_iff {line : Text} {start stop : Nat} :
    (slice? line start stop).isSome ↔
      start ≤ stop ∧ IsBoundary line start ∧ IsBoundary line stop := by
  rw [Option.isSome_iff_exists]
  constructor
  · rintro ⟨part, h⟩
    obtain ⟨head, rest, rfl, rfl, rfl⟩ := slice?_eq_some.1 h
    refine ⟨Nat.le_add_right .., ⟨head, part ++ rest, List.append_assoc .., rfl⟩,
      ⟨head ++ part, rest, rfl, byteLength_append ..⟩⟩
  · rintro ⟨hle, ⟨head, tail, rfl, rfl⟩, ⟨front, back, hsplit, rfl⟩⟩
    rcases List.append_eq_append_iff.1 hsplit with ⟨part, rfl, rfl⟩ | ⟨part, rfl, rfl⟩
    · refine ⟨part, slice?_eq_some.2 ⟨head, back, by simp, rfl, (byteLength_append ..).symm⟩⟩
    · -- The second boundary is not before the first, so nothing lies between them.
      rw [byteLength_append] at hle
      obtain rfl := byteLength_eq_zero.1 (show byteLength part = 0 by omega)
      exact ⟨[], slice?_eq_some.2 ⟨front, tail, by simp, by simp, by simp⟩⟩

end LineLexer
