import LineLexer.Language

/-!
# Resume states

The state at the end of a line holds all that the next line needs, so that lines can be lexed one
at a time and in any order once their start states are known. There is one type of sub-state per
language. Each sub-state knows by itself where to return to: a comment or a literal of a style sheet
holds its context, an attribute value its tag, an interpolation its depth of open braces.
-/

namespace LineLexer

/-- The two quotation marks. -/
inductive Quote where
  | double
  | single
  deriving DecidableEq, Repr

/-- The character of a quotation mark. -/
def Quote.char : Quote → Char
  | .double => '"'
  | .single => '\''

/-- The quotation mark that a character is. -/
def Quote.ofChar? (c : Char) : Option Quote :=
  if c = '"' then some .double else if c = '\'' then some .single else none

/-! ## Sub-states -/

/-- The element that a start tag belongs to: script and style tags open an embedded language. -/
inductive TagKind where
  | plain
  | script
  | style
  deriving DecidableEq, Repr

/-- Where a line of markup stands. -/
inductive MarkupState where
  /-- In text content. -/
  | content
  /-- In a start tag, between attributes. -/
  | startTag (tag : TagKind)
  /-- In an end tag, after its name. -/
  | endTag
  /-- In a quoted attribute value of a start tag. -/
  | attributeValue (quote : Quote) (tag : TagKind)
  /-- In a comment. -/
  | comment
  /-- In a declaration that an exclamation mark opens. -/
  | doctype
  /-- In a processing instruction. -/
  | instruction
  deriving DecidableEq, Repr

/-- What the block of an at-rule holds: nested rules, or declarations at once. -/
inductive AtRuleBody where
  | rules
  | declarations
  deriving DecidableEq, Repr

/-- The context that decides how the code of a style sheet is read. -/
inductive StyleContext where
  /-- Outside all blocks. -/
  | selector
  /-- Between the name of an at-rule and its semicolon or block. -/
  | atRule (body : AtRuleBody)
  /-- In a block, before the colon. -/
  | propertyKey
  /-- In a block, after the colon. -/
  | propertyValue
  deriving DecidableEq, Repr

/-- Where a line of a style sheet stands; comments and literals return to their context. -/
inductive StyleState where
  | code (context : StyleContext)
  | comment (context : StyleContext)
  | literal (quote : Quote) (context : StyleContext)
  deriving DecidableEq, Repr

/-- The number of open braces in an interpolation, as far as a state records it. -/
abbrev Depth := Fin 256

/-- Where a line of a script stands. -/
inductive ScriptState where
  | code
  | comment
  /-- In a literal continued by a backslash; `valid` until it has a malformed escape. -/
  | literal (quote : Quote) (valid : Bool)
  /-- In the text of a template. -/
  | template (valid : Bool)
  /-- In an interpolation of a template; a depth of zero never arises by lexing. -/
  | interpolation (depth : Depth)
  deriving DecidableEq, Repr

/-- The state that the end of a line hands to the start of the next. -/
inductive ResumeState where
  | markup (state : MarkupState)
  | style (state : StyleState)
  | script (state : ScriptState)
  deriving DecidableEq, Repr

/-! ## Queries -/

/-- One more open brace; at the largest depth the count stays. -/
def Depth.nest (depth : Depth) : Depth :=
  if h : depth.val + 1 < 256 then ⟨depth.val + 1, h⟩ else depth

/-- One open brace less; at zero the count stays. -/
def Depth.unnest (depth : Depth) : Depth :=
  ⟨depth.val - 1, Nat.lt_of_le_of_lt (Nat.sub_le ..) depth.isLt⟩

/-- The depth of a brace that opens an interpolation. -/
def Depth.one : Depth := ⟨1, by decide⟩

/-- The largest depth that a state records. -/
def Depth.max : Depth := ⟨255, by decide⟩

/-- The depth that the low byte of a number gives. -/
def Depth.ofByte (n : Nat) : Depth := ⟨n % 256, Nat.mod_lt n (by decide)⟩

/-- The context of a style sheet's state. -/
def StyleState.context : StyleState → StyleContext
  | code context | comment context | literal _ context => context

namespace ResumeState

/-- The state of the first line of a document: markup content. -/
def initial : ResumeState := .markup .content

/-- The language that owns a state. -/
def language : ResumeState → Language
  | markup _ => .markup
  | style _ => .style
  | script _ => .script

/-- The context of a state, if it belongs to a style sheet. -/
def styleContext? : ResumeState → Option StyleContext
  | style state => some state.context
  | markup _ | script _ => none

/-- The context in markup that follows the start tag of an element. -/
def ofElement : TagKind → ResumeState
  | .plain => .markup .content
  | .script => .script .code
  | .style => .style (.code .selector)

end ResumeState

end LineLexer
