import LineLexer.Text.Ascii

/-!
# Dictionaries

A dictionary is a sorted table of names in small letters, each with a value. A name is looked up in
any letter case: it is compared with the entries as if its ASCII capitals were small, and the
comparison halves the table at each step. The table is sorted by code points, under which this is
exact.
-/

namespace LineLexer

/-- A table of names with their values, sorted by name. -/
structure Dictionary (α : Type) where
  entries : Array (Text × α)

/-- How a name of a table compares with a name whose capitals are made small on the way. -/
def compareFolded : Text → Text → Ordering
  | [], [] => .eq
  | [], _ :: _ => .lt
  | _ :: _, [] => .gt
  | a :: as, b :: bs =>
    if a.toNat < b.toLower.toNat then .lt
    else if b.toLower.toNat < a.toNat then .gt
    else compareFolded as bs

namespace Dictionary

/-- The value of a name among the entries from `low` up to but not including `high`. -/
def findBetween? {α : Type} (dictionary : Dictionary α) (name : Text) (low high : Nat) : Option α :=
  if _h : low < high then
    match dictionary.entries[(low + high) / 2]? with
    | none => none
    | some (entry, value) =>
      match compareFolded entry name with
      | .eq => some value
      -- The entry is smaller than the name, so the name stands after it.
      | .lt => dictionary.findBetween? name ((low + high) / 2 + 1) high
      | .gt => dictionary.findBetween? name low ((low + high) / 2)
  else none
termination_by high - low

/-- The value of a name in any letter case. -/
def find? {α : Type} (dictionary : Dictionary α) (name : Text) : Option α :=
  dictionary.findBetween? name 0 dictionary.entries.size

/-- Whether the dictionary holds a name in any letter case. -/
def contains {α : Type} (dictionary : Dictionary α) (name : Text) : Bool :=
  (dictionary.find? name).isSome

/-- The dictionary of names that carry no value. -/
def ofNames (names : List String) : Dictionary Unit :=
  ⟨(names.map fun name => (name.toList, ())).toArray⟩

/-- The dictionary of names with values. -/
def ofList {α : Type} (entries : List (String × α)) : Dictionary α :=
  ⟨(entries.map fun entry => (entry.1.toList, entry.2)).toArray⟩

end Dictionary

end LineLexer
