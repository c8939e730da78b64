import LineLexer.Dump
import Mathlib.Data.List.Induction

/-!
# The lines of a document

Each line but the last one ends in a line feed, and no line holds another. So the lines of a text
that ends in a line feed come before those of any text after it (`terminatedLines_append`), and
there is one for each line feed (`length_terminatedLines`). A line falls into a body and the run of
carriage returns at its end (`exists_line`), which is trimmed away together with the line feed
(`trimTerminators_append`).
-/

namespace LineLexer

/-! ## Splitting -/

/-- A text without a line feed that is not empty is one line. -/
theorem terminatedLines_of_not_mem {line : Text} (h : '\n' ∉ line) (hne : line ≠ []) :
    terminatedLines line = [line] := by
  induction line with
  | nil => exact absurd rfl hne
  | cons c rest ih =>
    obtain ⟨hc, hrest⟩ := not_or.1 (mt List.mem_cons.2 h)
    rw [terminatedLines, if_neg (Ne.symm hc)]
    cases rest with
    | nil => rfl
    | cons d rest => rw [ih hrest (List.cons_ne_nil d rest)]

/-- Up to its first line feed, a text is one line. -/
theorem terminatedLines_line {line : Text} (h : '\n' ∉ line) (rest : Text) :
    terminatedLines (line ++ '\n' :: rest) = (line ++ ['\n']) :: terminatedLines rest := by
  induction line with
  | nil => simp [terminatedLines]
  | cons c line ih =>
    obtain ⟨hc, hline⟩ := not_or.1 (mt List.mem_cons.2 h)
    rw [List.cons_append, terminatedLines, if_neg (Ne.symm hc), ih hline]
    rfl

/-- Rows with a line feed at their end and no other one are the lines of what they make up. -/
theorem terminatedLines_flatten {rows : List Text}
    (h : ∀ row ∈ rows, ∃ line, row = line ++ ['\n'] ∧ '\n' ∉ line) :
    terminatedLines rows.flatten = rows := by
  induction rows with
  | nil => rfl
  | cons row rows ih =>
    obtain ⟨line, rfl, hline⟩ := h row List.mem_cons_self
    rw [List.flatten_cons, List.append_assoc, List.singleton_append, terminatedLines_line hline,
      ih fun row hrow => h row (List.mem_cons_of_mem _ hrow)]

/-- The lines of a text make it up. -/
theorem flatten_terminatedLines (text : Text) : (terminatedLines text).flatten = text := by
  fun_induction terminatedLines text with
  | case1 => rfl
  | case2 rest ih => rw [List.flatten_cons, ih, List.singleton_append]
  | case3 c rest hc hnil ih => simpa [hnil] using ih
  | case4 c rest hc line lines hlines ih =>
    rw [hlines, List.flatten_cons] at ih
    rw [List.flatten_cons, List.cons_append, ih]

/-- Only an empty text has no line. -/
theorem terminatedLines_eq_nil {text : Text} : terminatedLines text = [] ↔ text = [] := by
  constructor
  · intro h
    rw [← flatten_terminatedLines text, h, List.flatten_nil]
  · rintro rfl
    rfl

/-- The last character of a text is its first one or the last one of the rest. -/
theorem getLast?_cons_eq_some {c last : Char} {rest : Text} :
    (c :: rest).getLast? = some last ↔
      (rest = [] ∧ c = last) ∨ rest.getLast? = some last := by
  cases rest <;> simp

/-- The lines of a text that ends in a line feed come before those of the text after it. -/
theorem terminatedLines_append {first : Text} (h : first.getLast? = some '\n') (rest : Text) :
    terminatedLines (first ++ rest) = terminatedLines first ++ terminatedLines rest := by
  fun_induction terminatedLines first with
  | case1 => cases h
  | case2 first ih =>
    rw [List.cons_append, terminatedLines, if_pos rfl, List.cons_append]
    rcases getLast?_cons_eq_some.1 h with ⟨rfl, -⟩ | hlast
    · rfl
    · rw [ih hlast]
  | case3 c first hc hnil ih =>
    rcases getLast?_cons_eq_some.1 h with ⟨-, hc'⟩ | hlast
    · exact absurd hc' hc
    · rw [terminatedLines_eq_nil.1 hnil] at hlast
      cases hlast
  | case4 c first hc line lines hlines ih =>
    have hlast := (getLast?_cons_eq_some.1 h).resolve_left fun hsingle => hc hsingle.2
    rw [List.cons_append, terminatedLines, if_neg hc, ih hlast, hlines]
    rfl

/-- A text that ends in a line feed has a line for each of its line feeds. -/
theorem length_terminatedLines {text : Text} (h : text.getLast? = some '\n') :
    (terminatedLines text).length = text.count '\n' := by
  fun_induction terminatedLines text with
  | case1 => rfl
  | case2 rest ih =>
    rw [List.length_cons, List.count_cons_self]
    rcases getLast?_cons_eq_some.1 h with ⟨rfl, -⟩ | hlast
    · rfl
    · rw [ih hlast]
  | case3 c rest hc hnil ih =>
    have hlast := (getLast?_cons_eq_some.1 h).resolve_left fun hsingle => hc hsingle.2
    rw [terminatedLines_eq_nil.1 hnil] at hlast
    cases hlast
  | case4 c rest hc line lines hlines ih =>
    have hlast := (getLast?_cons_eq_some.1 h).resolve_left fun hsingle => hc hsingle.2
    rw [List.count_cons_of_ne hc, ← ih hlast, hlines]
    rfl

/-! ## Trimming -/

/-- What a line holds before the carriage returns at its end. -/
structure IsBody (body : Text) : Prop where
  newline : '\n' ∉ body
  last : body.getLast? ≠ some '\r'

/-- What ends a line before the rest of a document: carriage returns up to a line feed or up to the
end of the document. -/
inductive EndsLine : Text → Text → Prop
  | newline (rest : Text) : EndsLine ['\n'] rest
  | stop : EndsLine [] []
  | more {tail rest : Text} (h : EndsLine tail rest) : EndsLine ('\r' :: tail) rest

/-- What ends a line are line feeds and carriage returns. -/
theorem EndsLine.eq_of_mem {tail rest : Text} (h : EndsLine tail rest) :
    ∀ c ∈ tail, c = '\n' ∨ c = '\r' := by
  induction h with
  | newline => simp
  | stop => simp
  | more _ ih => simpa using ih

/-- Only what ends a line after its body is trimmed. -/
theorem trimTerminators_append {body tail rest : Text} (hbody : IsBody body)
    (htail : EndsLine tail rest) : trimTerminators (body ++ tail) = body := by
  have htrimmed : ∀ c ∈ tail.reverse, (c == '\n' || c == '\r') = true := by
    simpa using htail.eq_of_mem
  rw [trimTerminators, List.reverse_append, List.dropWhile_append_of_pos htrimmed]
  cases hback : body.reverse with
  | nil => simpa using hback.symm
  | cons c front =>
    obtain rfl : body = front.reverse ++ [c] := by simpa using congrArg List.reverse hback
    have hnewline : c ≠ '\n' := by
      rintro rfl
      exact hbody.newline (List.mem_append_right _ List.mem_cons_self)
    have hreturn : c ≠ '\r' := by
      rintro rfl
      exact hbody.last List.getLast?_concat
    rw [List.dropWhile_cons_of_neg (by simp [hnewline, hreturn]), List.reverse_cons]

/-- A text without a line feed falls into a body and carriage returns. -/
theorem exists_body {line tail rest : Text} (hline : '\n' ∉ line) (htail : EndsLine tail rest) :
    ∃ body returns, line = body ++ returns ∧ IsBody body ∧ EndsLine (returns ++ tail) rest := by
  induction line using List.reverseRecOn generalizing tail with
  | nil => exact ⟨[], [], rfl, ⟨by simp, by simp⟩, htail⟩
  | append_singleton front c ih =>
    by_cases hc : c = '\r'
    · subst hc
      obtain ⟨body, returns, rfl, hbody, hends⟩ :=
        ih (fun h => hline (List.mem_append_left _ h)) htail.more
      exact ⟨body, returns ++ ['\r'], List.append_assoc .., hbody, by simpa using hends⟩
    · exact ⟨front ++ [c], [], (List.append_nil _).symm, ⟨hline, by simpa using hc⟩, htail⟩

/-- A document that is not empty starts with a line, which has a body and an end. -/
theorem exists_line {document : Text} (h : document ≠ []) :
    ∃ body tail rest, document = body ++ tail ++ rest ∧ IsBody body ∧ EndsLine tail rest ∧
      terminatedLines document = (body ++ tail) :: terminatedLines rest := by
  by_cases hnewline : '\n' ∈ document
  · obtain ⟨line, rest, rfl, hline⟩ := List.eq_append_cons_of_mem hnewline
    have hlines := terminatedLines_line hline rest
    obtain ⟨body, returns, rfl, hbody, hends⟩ := exists_body hline (.newline rest)
    refine ⟨body, returns ++ ['\n'], rest, by simp, hbody, hends, ?_⟩
    rw [hlines, List.append_assoc]
  · have hlines := terminatedLines_of_not_mem hnewline h
    obtain ⟨body, returns, rfl, hbody, hends⟩ := exists_body hnewline .stop
    rw [List.append_nil] at hends
    exact ⟨body, returns, [], (List.append_nil _).symm, hbody, hends, hlines⟩

/-- A line starts with what is left of it when its end is trimmed. -/
theorem exists_trimmed (line : Text) : ∃ tail, line = trimTerminators line ++ tail := by
  have h := List.takeWhile_append_dropWhile (l := line.reverse)
    (p := fun c => c == '\n' || c == '\r')
  refine ⟨(line.reverse.takeWhile fun c => c == '\n' || c == '\r').reverse, ?_⟩
  rw [trimTerminators, ← List.reverse_append, h, List.reverse_reverse]

end LineLexer
