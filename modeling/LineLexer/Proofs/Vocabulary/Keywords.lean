import LineLexer.Proofs.Scan.Cut
import LineLexer.Proofs.Text.Bytewise

/-!
# The kinds of script words

The words with a kind of their own are listed here by kind, in the order in which the language is
described. Keeping them by length changes nothing (`kindAmong?_eq_some_iff`): each word is kept
under its own length, so the kind of a word is the one that reading the lists through finds
(`Kind.ofWord_eq_lookup`). All listed words are ASCII letters, so their length may as well be
counted in bytes (`Kind.ofWord_eq_ofBytes`).
-/

namespace LineLexer

/-- The words with a kind of their own. -/
def wordLists : List (Kind × List String) :=
  [(.reservedWord,
      ["break", "case", "catch", "class", "const", "continue", "debugger", "default", "delete",
        "do", "else", "export", "extends", "finally", "for", "function", "if", "import", "in",
        "instanceof", "let", "new", "super", "switch", "this", "throw", "try", "typeof", "var",
        "void", "while", "with", "yield", "async", "await", "static", "null", "undefined", "NaN",
        "Infinity"]),
    (.reservedWord2, ["return"]),
    (.literalBoolean, ["true", "false"]),
    (.dataType, ["boolean", "byte", "char", "double", "float", "int", "long", "short"]),
    (.functionName,
      ["eval", "parseInt", "parseFloat", "escape", "unescape", "isNaN", "isFinite"])]

/-- The listed words in a row, each with its kind. -/
def wordTable : List (Text × Kind) :=
  wordLists.flatMap fun list => list.2.map fun word => (word.toList, list.1)

/-! ## Listed words -/

section

variable {word : Text} {kind : Kind}

/-- The listed words are made of two to ten ASCII letters. -/
theorem listed_of_mem (h : (word, kind) ∈ wordTable) :
    2 ≤ word.length ∧ word.length ≤ 10 ∧ word.all Char.isAlpha = true := by
  have hall : ∀ entry ∈ wordTable, 2 ≤ entry.1.length ∧ entry.1.length ≤ 10 ∧
      entry.1.all Char.isAlpha = true := by
    decide
  exact hall _ h

/-- No word is listed twice, so reading through the lists finds a word just if it is listed. -/
theorem lookup_wordTable_eq_some_iff :
    wordTable.lookup word = some kind ↔ (word, kind) ∈ wordTable := by
  constructor
  · intro h
    obtain ⟨front, back, htable, -⟩ := List.lookup_eq_some_iff.1 h
    rw [htable]
    simp
  · have hall : ∀ entry ∈ wordTable, wordTable.lookup entry.1 = some entry.2 := by
      decide
    exact hall _

/-- The words that are kept under one length are listed, with the kind that they are kept with. -/
theorem mem_wordTable_of_mem_wordsOfLength {n : Nat} {group : Kind × List String}
    (hgroup : group ∈ wordsOfLength n) {entry : String} (hentry : entry ∈ group.2) :
    (entry.toList, group.1) ∈ wordTable := by
  have hlists : ∀ group ∈ wordsOfLength n, ∃ list ∈ wordLists, list.1 = group.1 ∧
      ∀ entry ∈ group.2, entry ∈ list.2 := by
    unfold wordsOfLength
    split
    case h_10 => simp
    all_goals decide
  obtain ⟨list, hlist, hkind, hwords⟩ := hlists group hgroup
  refine List.mem_flatMap.2 ⟨list, hlist, List.mem_map.2 ⟨entry, hwords entry hentry, ?_⟩⟩
  rw [hkind]

/-- The words that are kept under one length have that length. -/
theorem length_of_mem_wordsOfLength {n : Nat} {group : Kind × List String}
    (hgroup : group ∈ wordsOfLength n) {entry : String} (hentry : entry ∈ group.2) :
    entry.toList.length = n := by
  have hlengths : ∀ group ∈ wordsOfLength n, ∀ entry ∈ group.2, entry.toList.length = n := by
    unfold wordsOfLength
    split
    case h_10 => simp
    all_goals decide
  exact hlengths group hgroup entry hentry

/-- The words of one length are the listed ones of that length. -/
theorem kindAmong?_eq_some_iff {n : Nat} :
    kindAmong? (wordsOfLength n) word = some kind ↔ (word, kind) ∈ wordTable ∧ word.length = n := by
  constructor
  · intro h
    obtain ⟨group, hfind, rfl⟩ := Option.map_eq_some_iff.1 h
    have hgroup := List.mem_of_find?_eq_some hfind
    have hword := List.find?_some hfind
    simp only [List.any_eq_true, beq_iff_eq] at hword
    obtain ⟨entry, hentry, rfl⟩ := hword
    exact ⟨mem_wordTable_of_mem_wordsOfLength hgroup hentry,
      length_of_mem_wordsOfLength hgroup hentry⟩
  · rintro ⟨h, rfl⟩
    have hall : ∀ entry ∈ wordTable,
        kindAmong? (wordsOfLength entry.1.length) entry.1 = some entry.2 := by
      decide
    exact hall _ h

end

/-! ## Kinds -/

/-- The kind of a word is the one that reading the lists through finds, in the exact letter case. -/
theorem Kind.ofWord_eq_lookup (word : Text) :
    Kind.ofWord word = (wordTable.lookup word).getD .identifier := by
  have hamong : kindAmong? (wordsOfLength word.length) word = wordTable.lookup word :=
    Option.ext fun kind => by
      rw [kindAmong?_eq_some_iff, lookup_wordTable_eq_some_iff, and_iff_left rfl]
  cases word with
  | nil => decide
  | cons c rest =>
    rw [Kind.ofWord, hamong]
    split
    · rfl
    next hletter =>
      cases hlookup : wordTable.lookup (c :: rest) with
      | none => rfl
      | some kind =>
        obtain ⟨-, -, hall⟩ := listed_of_mem (lookup_wordTable_eq_some_iff.1 hlookup)
        exact absurd (List.all_eq_true.1 hall c List.mem_cons_self) hletter

/-- A listed word takes as many bytes as it has characters. -/
theorem byteLength_of_listed {word : Text} {kind : Kind} (h : (word, kind) ∈ wordTable) :
    byteLength word = word.length := by
  refine (byteLength_of_allAscii fun c hc => ?_)
  have hletter := List.all_eq_true.1 (listed_of_mem h).2.2 c hc
  exact asciiOnly_isAlpha.isNonAscii_eq_false hletter

/-- The kind of a word by its length in bytes: words of two to ten bytes that start with a letter
are looked up among those of their length. -/
def Kind.ofBytes (word : Text) : Kind :=
  if 2 ≤ byteLength word ∧ byteLength word ≤ 10 ∧ word.head?.any Char.isAlpha = true then
    (kindAmong? (wordsOfLength (byteLength word)) word).getD .identifier
  else .identifier

/-- Counting bytes gives no other kinds. -/
theorem Kind.ofWord_eq_ofBytes (word : Text) : Kind.ofWord word = Kind.ofBytes word := by
  have hamong : kindAmong? (wordsOfLength (byteLength word)) word = wordTable.lookup word :=
    Option.ext fun kind => by
      rw [kindAmong?_eq_some_iff, lookup_wordTable_eq_some_iff, and_iff_left_iff_imp]
      exact fun h => (byteLength_of_listed h).symm
  rw [Kind.ofWord_eq_lookup, Kind.ofBytes, hamong]
  split
  · rfl
  next hother =>
    -- A word that is not looked up is not listed.
    cases hlookup : wordTable.lookup word with
    | none => rfl
    | some kind =>
      have hlisted := lookup_wordTable_eq_some_iff.1 hlookup
      obtain ⟨hlow, hhigh, hall⟩ := listed_of_mem hlisted
      rw [← byteLength_of_listed hlisted] at hlow hhigh
      refine absurd ⟨hlow, hhigh, ?_⟩ hother
      cases word with
      | nil => cases hlow
      | cons c rest => exact List.all_eq_true.1 hall c List.mem_cons_self

/-- A word with a character other than an ASCII letter is an identifier. -/
theorem Kind.ofWord_of_mem {word : Text} {c : Char} (hc : c ∈ word) (hletter : c.isAlpha = false) :
    Kind.ofWord word = .identifier := by
  rw [Kind.ofWord_eq_lookup]
  cases hlookup : wordTable.lookup word with
  | none => rfl
  | some kind =>
    obtain ⟨-, -, hall⟩ := listed_of_mem (lookup_wordTable_eq_some_iff.1 hlookup)
    have hc := List.all_eq_true.1 hall c hc
    rw [hletter] at hc
    cases hc

namespace Script

/-- The first character of a word is no digit. -/
theorem isDigit_of_isWordStart {c : Char} (hc : isWordStart c = true) : c.isDigit = false := by
  cases hascii : isNonAscii c with
  | true => exact asciiOnly_isDigit c hascii
  | false =>
    have hcode : ∀ code < 128, isWordStart (Char.ofNat code) = true →
        (Char.ofNat code).isDigit = false := by
      decide
    rw [← Char.ofNat_toNat c] at hc ⊢
    exact hcode c.toNat (isNonAscii_eq_false.1 hascii) hc

/-- In code, a word is read at the first character of one. -/
theorem code_eq_word {c : Char} (hc : isWordStart c = true) (regexAllowed : Bool) (rest : Text) :
    code regexAllowed c rest =
      one (Kind.ofWord (c :: rest.takeWhile isWordChar)) (c :: rest.takeWhile isWordChar).length
        .code := by
  have hother : ∀ d, isWordStart d = false → c ≠ d := by
    rintro d hd rfl
    rw [hc] at hd
    cases hd
  have hmarks : ∀ d ∈ [' ', '\t', '\x0c', '\r', '\n', '<', '/', '`', '"', '\'', '.', '(', ')', '[',
      ']', '{', '}', ';', ','], c ≠ d := by
    have hall : [' ', '\t', '\x0c', '\r', '\n', '<', '/', '`', '"', '\'', '.', '(', ')', '[', ']',
        '{', '}', ';', ','].all (fun d => !isWordStart d) = true := by
      decide
    exact fun d hd => hother d (by simpa using List.all_eq_true.1 hall d hd)
  simp only [List.mem_cons, List.not_mem_nil, or_false, forall_eq_or_imp, forall_eq] at hmarks
  simp [code, isBlank, Quote.ofChar?, hmarks, plainCode, isDigit_of_isWordStart hc, hc]

/-- In code, the word at the head of a text is cut off, with the kind that it is listed under. -/
theorem cutsOff_word (scope : LinkScope) {c : Char} (hc : isWordStart c = true) (rest : Text) :
    CutsOff scope (.script .code) (c :: rest)
      [⟨Kind.ofWord (c :: rest.takeWhile isWordChar), .script, c :: rest.takeWhile isWordChar,
        .empty⟩] (.script .code) := by
  have hscope : scope.appliesTo (Kind.ofWord (c :: rest.takeWhile isWordChar)) = false := by
    have hkinds : ∀ kind ∈ [Kind.identifier, .reservedWord, .reservedWord2, .dataType,
        .literalBoolean, .functionName], scope.appliesTo kind = false := by
      cases scope <;> decide
    exact hkinds _ (Kind.ofWord_mem _)
  have hstep : ∀ past, step past (.script .code) c rest = _ := fun _ => code_eq_word hc _ rest
  have hcut := cutsOff_of_step_singleton scope hstep (Nat.succ_pos _) hscope
  rwa [List.length_cons, ← runLength, take_runLength_succ] at hcut

end Script

open Script

/-- Reading the lists of words through gives the kind of every word, and all words that are not
listed are identifiers, among them those with a character that is no ASCII letter. It makes no
difference that only words of the same length are looked at, nor whether bytes or characters are
counted. So where a script comes to a word, the next token is the word with its listed kind. -/
theorem cutsOff_lookup_wordTable :
    (∀ word, Kind.ofWord word = (wordTable.lookup word).getD .identifier ∧
      Kind.ofWord word = Kind.ofBytes word) ∧
    (∀ word, (∃ c ∈ word, c.isAlpha = false) → Kind.ofWord word = .identifier) ∧
    ∀ scope c rest, isWordStart c = true →
      let word := c :: rest.takeWhile isWordChar
      CutsOff scope (.script .code) (c :: rest)
        [⟨(wordTable.lookup word).getD .identifier, .script, word, .empty⟩] (.script .code) := by
  refine ⟨fun word => ⟨Kind.ofWord_eq_lookup word, Kind.ofWord_eq_ofBytes word⟩, ?_, ?_⟩
  · rintro word ⟨c, hc, hletter⟩
    exact Kind.ofWord_of_mem hc hletter
  · intro scope c rest hc word
    rw [← Kind.ofWord_eq_lookup]
    exact cutsOff_word scope hc rest

/-- A word that only starts like a listed one is an identifier, and so is one with a letter that is
not ASCII. -/
theorem cutsOff_lookup_wordTable_of_prefix :
    (∃ c ∈ "işNaN".toList, c.isAlpha = false) ∧ Kind.ofWord "işNaN".toList = .identifier ∧
      isWordStart 'i' = true ∧
      CutsOff .comments (.script .code) "instanceof2(".toList
        [⟨.identifier, .script, "instanceof2".toList, .empty⟩] (.script .code) := by
  have hletter : ∃ c ∈ "işNaN".toList, c.isAlpha = false := ⟨'ş', by decide, by decide⟩
  have hstart : isWordStart 'i' = true := by decide
  exact ⟨hletter, cutsOff_lookup_wordTable.2.1 _ hletter, hstart,
    cutsOff_lookup_wordTable.2.2 .comments 'i' "nstanceof2(".toList hstart⟩

end LineLexer
