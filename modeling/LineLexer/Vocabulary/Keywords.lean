import LineLexer.Kind
import LineLexer.Text.Basic

/-!
# Script words

The words that a script gives a kind of their own, in their exact letter case. The words are kept by
length, so that most identifiers are told from them without a comparison of texts.
-/

namespace LineLexer

/-- The words of one length, each with its kind. -/
def wordsOfLength : Nat → List (Kind × List String)
  | 2 => [(.reservedWord, ["do", "if", "in"])]
  | 3 => [(.reservedWord, ["for", "let", "new", "try", "var", "NaN"]), (.dataType, ["int"])]
  | 4 =>
    [(.reservedWord, ["case", "else", "null", "this", "void", "with"]),
      (.dataType, ["byte", "char", "long"]), (.literalBoolean, ["true"]), (.functionName, ["eval"])]
  | 5 =>
    [(.reservedWord,
        ["async", "await", "break", "catch", "class", "const", "super", "throw", "while", "yield"]),
      (.dataType, ["float", "short"]), (.literalBoolean, ["false"]), (.functionName, ["isNaN"])]
  | 6 =>
    [(.reservedWord, ["delete", "export", "import", "static", "switch", "typeof"]),
      (.reservedWord2, ["return"]), (.dataType, ["double"]), (.functionName, ["escape"])]
  | 7 => [(.reservedWord, ["default", "extends", "finally"]), (.dataType, ["boolean"])]
  | 8 =>
    [(.reservedWord, ["continue", "debugger", "function", "Infinity"]),
      (.functionName, ["isFinite", "parseInt", "unescape"])]
  | 9 => [(.reservedWord, ["undefined"])]
  | 10 => [(.reservedWord, ["instanceof"]), (.functionName, ["parseFloat"])]
  | _ => []

/-- The kind of a word among words of its length. -/
def kindAmong? (groups : List (Kind × List String)) (word : Text) : Option Kind :=
  (groups.find? fun group => group.2.any fun entry => entry.toList == word).map (·.1)

/-- The kind of a script word; a word without a kind of its own is an identifier. -/
def Kind.ofWord (word : Text) : Kind :=
  match word with
  | [] => .identifier
  | c :: _ =>
    if c.isAlpha then (kindAmong? (wordsOfLength word.length) word).getD .identifier
    else .identifier

/-- The kinds of script words. -/
theorem Kind.ofWord_mem (word : Text) :
    Kind.ofWord word ∈ [Kind.identifier, .reservedWord, .reservedWord2, .dataType, .literalBoolean,
      .functionName] := by
  have hgroups : ∀ n, ∀ group ∈ wordsOfLength n, group.1 ∈ [Kind.identifier, .reservedWord,
      .reservedWord2, .dataType, .literalBoolean, .functionName] := by
    intro n
    unfold wordsOfLength
    split <;> decide
  unfold Kind.ofWord
  split
  · decide
  split
  next c rest _ =>
    cases h : kindAmong? (wordsOfLength (c :: rest).length) (c :: rest) with
    | none => simp
    | some kind =>
      obtain ⟨group, hgroup, rfl⟩ := Option.map_eq_some_iff.1 h
      exact hgroups _ group (List.mem_of_find?_eq_some hgroup)
  · decide

end LineLexer
