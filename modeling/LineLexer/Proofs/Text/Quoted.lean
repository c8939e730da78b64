import LineLexer.Proofs.Text.Word
import LineLexer.Text.Quoted
import Mathlib.Data.List.Forall2

/-!
# Quoted texts that are read back

Between double quotes a character stands for itself, or an escape stands for it (`IsQuotedAs`). In
any such writing of a text only the closing quote is a double quote without a backslash before it.
So `unquote?`, which reads up to that quote, reads the text back, whatever follows it
(`IsQuotation.exists_unquote?_eq`), and a text in quotes stays on one line
(`IsQuotation.newline_not_mem`). What characters are escaped besides those that must be makes no
difference; `quoted` is one of the writings (`isQuotation_quoted`).
-/

namespace LineLexer

/-! ## Reading -/

/-- The character that an escape stands for, and the width of the escape, given the text after its
backslash. -/
def unescape? : Text → Option (Char × Nat)
  | [] => none
  | c :: rest =>
    if c = 't' then some ('\t', 1)
    else if c = 'n' then some ('\n', 1)
    else if c = 'r' then some ('\r', 1)
    else if c = '0' then some ('\x00', 1)
    else if c = '"' ∨ c = '\\' then some (c, 1)
    else if c = 'u' ∧ rest.head? = some '{' then
      let digits := (rest.drop 1).takeWhile (· != '}')
      (readNumber? 16 digits).map fun code => (Char.ofNat code, digits.length + 3)
    else none

/-- The text in quotes whose opening quote stands before, and the text after its closing quote. -/
def unquote? : Text → Option (Text × Text)
  | [] => none
  | c :: rest =>
    if c = '"' then some ([], rest)
    else if c = '\\' then
      match unescape? rest with
      | none => none
      | some (d, width) => (unquote? (rest.drop width)).map fun read => (d :: read.1, read.2)
    else (unquote? rest).map fun read => (c :: read.1, read.2)
termination_by text => text.length
decreasing_by
  · simp only [List.length_drop, List.length_cons]
    omega
  · exact Nat.lt_succ_self _

/-! ## Writing -/

/-- The escapes of one letter, each with the character that it stands for. -/
def letterEscapes : List (Char × Char) :=
  [('\\', '\\'), ('"', '"'), ('t', '\t'), ('n', '\n'), ('r', '\r'), ('0', '\x00')]

/-- What may stand for a character between double quotes: the character itself, unless it is a
backslash, a double quote or a line feed, an escape of one letter, or the code point in hexadecimal
digits in braces. -/
inductive IsQuotedAs : Char → Text → Prop
  | plain {c : Char} (hc : c ∉ ['\\', '"', '\n']) : IsQuotedAs c [c]
  | letter {c letter : Char} (h : (letter, c) ∈ letterEscapes) : IsQuotedAs c ['\\', letter]
  | code {c : Char} {digits : Text} (h : IsNumeral 16 digits c.toNat) :
    IsQuotedAs c ('\\' :: 'u' :: '{' :: (digits ++ ['}']))

/-- A text between double quotes, with something for each of its characters. -/
def IsQuotation (text quotation : Text) : Prop :=
  ∃ pieces, List.Forall₂ IsQuotedAs text pieces ∧ quotation = '"' :: (pieces.flatten ++ ['"'])

/-- A character is quoted in one of the ways that stand for it. -/
theorem isQuotedAs_quotedChar (c : Char) : IsQuotedAs c (quotedChar c) := by
  unfold quotedChar
  split
  next h => exact .letter (by rw [h]; decide)
  next hquote =>
  split
  next h => exact .letter (by rw [h]; decide)
  next hslash =>
  split
  next h => exact .letter (by rw [h]; decide)
  split
  next h => exact .letter (by rw [h]; decide)
  next hnewline =>
  split
  next h => exact .letter (by rw [h]; decide)
  split
  next h => exact .letter (by rw [h]; decide)
  split
  · exact .plain (by simp [hquote, hslash, hnewline])
  · exact .code (isNumeral_toDigits (by decide) (by decide) c.toNat)

/-- A quoted text is a quotation of the text. -/
theorem isQuotation_quoted (text : Text) : IsQuotation text (quoted text) := by
  refine ⟨text.map quotedChar, ?_, by rw [quoted, List.flatMap_def]⟩
  rw [List.forall₂_map_right_iff, List.forall₂_same]
  exact fun c _ => isQuotedAs_quotedChar c

/-! ## What is written is read back -/

/-- An escape of one letter is read as its character. -/
theorem unescape?_letter {c letter : Char} (h : (letter, c) ∈ letterEscapes) (rest : Text) :
    unescape? (letter :: rest) = some (c, 1) := by
  simp only [letterEscapes, List.mem_cons, Prod.mk.injEq, List.not_mem_nil, or_false] at h
  rcases h with ⟨rfl, rfl⟩ | ⟨rfl, rfl⟩ | ⟨rfl, rfl⟩ | ⟨rfl, rfl⟩ | ⟨rfl, rfl⟩ | ⟨rfl, rfl⟩
  all_goals rfl

/-- A code point in braces is read as its character. -/
theorem unescape?_code {c : Char} {digits : Text} (h : IsNumeral 16 digits c.toNat) (rest : Text) :
    unescape? ('u' :: '{' :: (digits ++ '}' :: rest)) = some (c, digits.length + 3) := by
  have hbrace : ∀ d ∈ digits, (d != '}') = true := fun d hd =>
    bne_iff_ne.2 fun heq => h.not_mem (by decide) (heq ▸ hd)
  have hdigits : (digits ++ '}' :: rest).takeWhile (· != '}') = digits := by
    rw [List.takeWhile_append_of_pos hbrace]
    simp
  have hnumber : readNumber? 16 digits = some c.toNat := readNumber?_eq_some_iff.2 (.inl h)
  simp [unescape?, hdigits, hnumber]

/-- What stands for characters is read up to the closing quote. -/
theorem unquote?_flatten {text : Text} {pieces : List Text}
    (h : List.Forall₂ IsQuotedAs text pieces) (rest : Text) :
    unquote? (pieces.flatten ++ '"' :: rest) = some (text, rest) := by
  induction h with
  | nil => simp [unquote?]
  | @cons c piece text pieces hc _ ih =>
    rw [List.flatten_cons, List.append_assoc]
    generalize pieces.flatten ++ '"' :: rest = more at ih ⊢
    cases hc with
    | plain hc =>
      simp only [List.mem_cons, List.not_mem_nil, or_false, not_or] at hc
      rw [List.singleton_append, unquote?, if_neg hc.2.1, if_neg hc.1, ih]
      rfl
    | letter hletter => simp [unquote?, unescape?_letter hletter, ih]
    | @code digits hdigits =>
      have hwidth : ('u' :: '{' :: (digits ++ '}' :: more)).drop (digits.length + 3) = more := by
        simp [List.drop_append]
      have hall : '\\' :: 'u' :: '{' :: (digits ++ ['}']) ++ more =
          '\\' :: 'u' :: '{' :: (digits ++ '}' :: more) := by
        simp
      rw [hall, unquote?, unescape?_code hdigits]
      simp only [Char.reduceEq, ↓reduceIte, hwidth, ih]
      rfl

/-- What stands for characters holds no line break. -/
theorem newline_not_mem_flatten {text : Text} {pieces : List Text}
    (h : List.Forall₂ IsQuotedAs text pieces) : '\n' ∉ pieces.flatten := by
  induction h with
  | nil => simp
  | cons hc _ ih =>
    rw [List.flatten_cons, List.mem_append, not_or]
    refine ⟨?_, ih⟩
    cases hc with
    | plain hc => simpa [eq_comm] using fun heq => hc (by simp [heq])
    | letter hletter =>
      have hall : letterEscapes.all (·.1 != '\n') = true := by decide
      have hne := bne_iff_ne.1 (List.all_eq_true.1 hall _ hletter)
      simpa using hne.symm
    | code hdigits => simpa using hdigits.not_mem (by decide)

section

variable {text quotation : Text}

/-- A text in quotes is read back, whatever follows it. -/
theorem IsQuotation.exists_unquote?_eq (h : IsQuotation text quotation) :
    ∃ body, quotation = '"' :: body ∧ ∀ rest, unquote? (body ++ rest) = some (text, rest) := by
  obtain ⟨pieces, hpieces, rfl⟩ := h
  refine ⟨_, rfl, fun rest => ?_⟩
  rw [List.append_assoc]
  exact unquote?_flatten hpieces rest

/-- A text in quotes holds no line break. -/
theorem IsQuotation.newline_not_mem (h : IsQuotation text quotation) : '\n' ∉ quotation := by
  obtain ⟨pieces, hpieces, rfl⟩ := h
  simpa using newline_not_mem_flatten hpieces

end

end LineLexer
