import LineLexer.State.Basic
import LineLexer.Vocabulary.Dictionary

/-!
# Names in style sheets

The pseudo-classes and pseudo-elements, the at-rules and the units that style sheets know, in any
letter case.
-/

namespace LineLexer

/-- The names that may follow one or two colons in a selector, sorted. -/
def pseudoNames : List String :=
  ["active", "after", "any-link", "before", "checked", "default", "defined", "disabled", "empty",
    "enabled", "first", "first-child", "first-letter", "first-line", "first-of-type", "focus",
    "focus-visible", "focus-within", "fullscreen", "has", "hover", "in-range", "indeterminate",
    "invalid", "is", "lang", "last-child", "last-of-type", "left", "link", "marker", "not",
    "nth-child", "nth-last-child", "nth-last-of-type", "nth-of-type", "only-child", "only-of-type",
    "optional", "out-of-range", "placeholder", "read-only", "read-write", "required", "right",
    "root", "selection", "target", "valid", "visited", "where"]

/-- The at-rules with what their blocks hold, sorted. -/
def atRuleBodies : List (String × AtRuleBody) :=
  [("charset", .rules), ("container", .rules), ("counter-style", .declarations),
    ("document", .rules), ("font-face", .declarations), ("font-feature-values", .rules),
    ("import", .rules), ("keyframes", .rules), ("layer", .rules), ("media", .rules),
    ("namespace", .rules), ("page", .declarations), ("property", .declarations),
    ("supports", .rules), ("viewport", .declarations)]

/-- The units that stay part of a number, sorted. -/
def unitNames : List String :=
  ["ch", "cm", "deg", "dpi", "dppx", "em", "ex", "fr", "hz", "in", "khz", "mm", "ms", "pc", "pt",
    "px", "rad", "rem", "s", "turn", "vh", "vmax", "vmin", "vw"]

/-- The dictionary of pseudo-classes and pseudo-elements, without colons. -/
def pseudos : Dictionary Unit :=
  .ofNames pseudoNames

/-- The dictionary of at-rules, without the at sign. -/
def atRules : Dictionary AtRuleBody :=
  .ofList atRuleBodies

/-- The dictionary of units. -/
def units : Dictionary Unit :=
  .ofNames unitNames

end LineLexer
