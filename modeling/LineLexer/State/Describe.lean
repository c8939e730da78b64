import LineLexer.State.Code
import LineLexer.Text.Numeral

/-!
# States in words

How states and the faults of state words are written for a reader. A state is written as nested
constructors, outermost the language.
-/

namespace LineLexer

/-- A constructor applied to one argument. -/
def applied (name : String) (argument : Text) : Text :=
  name.toList ++ '(' :: (argument ++ [')'])

/-- A constructor with one named field. -/
def withField (name field : String) (value : Text) : Text :=
  name.toList ++ " \x7b ".toList ++ field.toList ++ ": ".toList ++ value ++ " \x7d".toList

/-- The name of an element. -/
def TagKind.describe : TagKind → Text
  | plain => "Plain".toList
  | script => "Script".toList
  | style => "Style".toList

/-- A state of markup in words. -/
def MarkupState.describe : MarkupState → Text
  | content => "Default".toList
  | startTag tag => applied "Tag" tag.describe
  | endTag => "ClosingTag".toList
  | attributeValue .double tag => applied "AttrDouble" tag.describe
  | attributeValue .single tag => applied "AttrSingle" tag.describe
  | comment => "Comment".toList
  | doctype => "Doctype".toList
  | instruction => "ProcessingInstruction".toList

/-- A context of a style sheet in words. -/
def StyleContext.describe : StyleContext → Text
  | selector => "Selector".toList
  | atRule .rules => applied "AtRule" "Rules".toList
  | atRule .declarations => applied "AtRule" "Declarations".toList
  | propertyKey => "PropertyKey".toList
  | propertyValue => "PropertyValue".toList

/-- A state of a style sheet in words. -/
def StyleState.describe : StyleState → Text
  | code context => applied "Context" context.describe
  | comment context => applied "Comment" context.describe
  | literal .double context => applied "String" context.describe
  | literal .single context => applied "Char" context.describe

/-- A truth value in words. -/
def truthText (b : Bool) : Text :=
  if b then "true".toList else "false".toList

/-- A state of a script in words. -/
def ScriptState.describe : ScriptState → Text
  | code => "Default".toList
  | comment => "Comment".toList
  | literal .double valid => withField "DoubleQuote" "valid" (truthText valid)
  | literal .single valid => withField "SingleQuote" "valid" (truthText valid)
  | template valid => withField "Template" "valid" (truthText valid)
  | interpolation depth => withField "Interpolation" "depth" (decimalText depth.val)

/-- A state in words. -/
def ResumeState.describe : ResumeState → Text
  | markup state => applied "Markup" state.describe
  | style state => applied "Style" state.describe
  | script state => applied "Script" state.describe

/-- What a fault says to a reader. -/
def StateFault.message : StateFault → Text
  | unknownCode raw code =>
    "resume state 0x".toList ++ hexText raw.toNat ++ ": unknown sub-state code ".toList
      ++ decimalText code
  | strayBits raw =>
    "resume state 0x".toList ++ hexText raw.toNat
      ++ ": bits set outside the sub-state's fields".toList
  | zeroDepth raw =>
    "resume state 0x".toList ++ hexText raw.toNat ++ ": interpolation depth is zero".toList

end LineLexer
