import LineLexer.Text.Search

/-!
# Letter case

Making capitals small moves a code point only between the capitals and the small letters, so a
character that is not a small letter comes from itself alone (`eq_of_toLower_eq`).
-/

namespace LineLexer

/-- Capitals are made small by adding to their code points; all else stays. -/
theorem toNat_toLower (c : Char) :
    c.toLower.toNat = if 65 ≤ c.toNat ∧ c.toNat ≤ 90 then c.toNat + 32 else c.toNat := by
  have hcap : (c.val ≥ 'A'.val ∧ c.val ≤ 'Z'.val) ↔ 65 ≤ c.toNat ∧ c.toNat ≤ 90 := by
    simp only [ge_iff_le, UInt32.le_iff_toNat_le]
    rfl
  unfold Char.toLower
  split
  next h =>
    rw [if_pos (hcap.1 h)]
    have hlt := (hcap.1 h).2
    have hval : (c.val + ('a'.val - 'A'.val)).toNat = c.toNat + 32 := by
      rw [UInt32.toNat_add]
      have h32 : ('a'.val - 'A'.val).toNat = 32 := rfl
      have hc : c.val.toNat = c.toNat := rfl
      rw [h32, hc]
      omega
    exact hval
  next h =>
    rw [if_neg fun hn => h (hcap.2 hn)]

/-- A character that is no small letter comes from itself alone. -/
theorem eq_of_toLower_eq {c d : Char} (h : c.toLower = d) (hd : ¬(97 ≤ d.toNat ∧ d.toNat ≤ 122)) :
    c = d := by
  have hnat := toNat_toLower c
  rw [h] at hnat
  apply Char.toNat_inj.1
  split at hnat
  · omega
  · exact hnat.symm

/-- A text starts with a head, letter case aside, exactly if it falls into one that folds to the
same and a rest. -/
theorem startsWithFolded_iff {head text : Text} :
    startsWithFolded head text = true ↔
      ∃ first rest, text = first ++ rest ∧ first.length = head.length ∧
        foldCase first = foldCase head := by
  unfold startsWithFolded
  rw [beq_iff_eq]
  constructor
  · intro h
    have hlen : (text.take head.length).length = head.length := by
      have := congrArg List.length h
      simpa using this
    exact ⟨text.take head.length, text.drop head.length, (List.take_append_drop ..).symm, hlen, h⟩
  · rintro ⟨first, rest, rfl, hlen, h⟩
    rw [← hlen, List.take_left, h]

end LineLexer
