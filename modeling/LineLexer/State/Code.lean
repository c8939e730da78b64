import LineLexer.State.Basic

/-!
# State codes

A state as a 32-bit word, so that a host can store it. The low byte is the code of the sub-state:
markup has the codes below 64, style sheets those below 128, scripts those below 192. The second
byte is the depth of an interpolation and zero elsewhere; the upper half is zero. The word 0 is the
initial state.

The codes are read back by ranges, one table for each language. `decode` accepts exactly the words
that `encode` gives for the states of `all`, and says of any other word what is wrong with it.
-/

namespace LineLexer

/-! ## Codes of the sub-states -/

/-- The offset of a quotation mark among codes that have one for each. -/
def Quote.index : Quote → Nat
  | .double => 0
  | .single => 1

/-- The offset of an element among codes that have one for each. -/
def TagKind.index : TagKind → Nat
  | .plain => 0
  | .script => 1
  | .style => 2

/-- The code of a state of markup. -/
def MarkupState.number : MarkupState → Nat
  | content => 0
  | startTag tag => 1 + tag.index
  | endTag => 4
  | attributeValue quote tag => 5 + 3 * quote.index + tag.index
  | comment => 11
  | doctype => 12
  | instruction => 13

/-- The offset of a context in the block of eight codes of a style sheet's construct. -/
def StyleContext.index : StyleContext → Nat
  | selector => 0
  | atRule .rules => 1
  | atRule .declarations => 2
  | propertyKey => 3
  | propertyValue => 4

/-- The number of the block of codes of a style sheet's construct. -/
def StyleState.block : StyleState → Nat
  | code _ => 0
  | comment _ => 1
  | literal quote _ => 2 + quote.index

/-- The offset of a literal's validity: valid, then malformed. -/
def validityIndex (valid : Bool) : Nat :=
  if valid then 0 else 1

/-- The code of a state of a script. -/
def ScriptState.number : ScriptState → Nat
  | code => 128
  | comment => 129
  | literal quote valid => 130 + 2 * quote.index + validityIndex valid
  | template valid => 134 + validityIndex valid
  | interpolation _ => 136

namespace ResumeState

/-- The low byte of a state's word. -/
def number : ResumeState → Nat
  | markup state => state.number
  | style state => 64 + 8 * state.block + state.context.index
  | script state => state.number

/-- The second byte of a state's word. -/
def depthByte : ResumeState → Nat
  | script (.interpolation depth) => depth.val
  | _ => 0

/-- The word of a state. -/
def encode (state : ResumeState) : UInt32 :=
  UInt32.ofNat (state.number + 256 * state.depthByte)

end ResumeState

/-! ## States of codes -/

/-- The elements, in the order of their codes. -/
def TagKind.all : List TagKind := [plain, script, style]

/-- The state of markup that has a code. -/
def MarkupState.ofNumber? (number : Nat) : Option MarkupState :=
  if number = 0 then some content
  else if number < 4 then TagKind.all[number - 1]?.map startTag
  else if number = 4 then some endTag
  else if number < 8 then TagKind.all[number - 5]?.map (attributeValue .double)
  else if number < 11 then TagKind.all[number - 8]?.map (attributeValue .single)
  else if number = 11 then some comment
  else if number = 12 then some doctype
  else if number = 13 then some instruction
  else none

/-- The context at an offset in a block of eight codes, of which five are used. -/
def StyleContext.ofIndex? : Nat → Option StyleContext
  | 0 => some selector
  | 1 => some (atRule .rules)
  | 2 => some (atRule .declarations)
  | 3 => some propertyKey
  | 4 => some propertyValue
  | _ => none

/-- The construct of a style sheet that a block of codes belongs to. -/
def StyleState.ofBlock? (block : Nat) (context : StyleContext) : Option StyleState :=
  match block with
  | 0 => some (code context)
  | 1 => some (comment context)
  | 2 => some (literal .double context)
  | 3 => some (literal .single context)
  | _ => none

/-- The state of a style sheet that has a code, given the offset of the code among those of style
sheets. -/
def StyleState.ofOffset? (offset : Nat) : Option StyleState :=
  (StyleContext.ofIndex? (offset % 8)).bind (ofBlock? (offset / 8))

/-- The state of a script that has a code and a second byte. Validity takes turns, so it is read
off the code. -/
def ScriptState.ofNumber? (number : Nat) (depth : Depth) : Option ScriptState :=
  let valid := (number - 128) % 2 == 0
  if number = 128 then some code
  else if number = 129 then some comment
  else if number < 132 then some (literal .double valid)
  else if number < 134 then some (literal .single valid)
  else if number < 136 then some (template valid)
  else if number = 136 then some (interpolation depth)
  else none

/-- The state that has a code and a second byte; each language has its range of codes. -/
def ResumeState.ofNumber? (number : Nat) (depth : Depth) : Option ResumeState :=
  if number < 64 then (MarkupState.ofNumber? number).map markup
  else if number < 128 then (StyleState.ofOffset? (number - 64)).map style
  else (ScriptState.ofNumber? number depth).map script

/-! ## All states -/

/-- The contexts of a style sheet, in the order of their codes. -/
def StyleContext.all : List StyleContext :=
  [selector, atRule .rules, atRule .declarations, propertyKey, propertyValue]

/-- The states of markup, which use up the codes up to the last one. -/
def MarkupState.all : List MarkupState :=
  (List.range 14).filterMap ofNumber?

/-- The states of a style sheet, in the order of their codes. -/
def StyleState.all : List StyleState :=
  [code, comment, literal .double, literal .single].flatMap StyleContext.all.map

/-- The states of a script outside interpolations, in the order of their codes. -/
def ScriptState.plain : List ScriptState :=
  [code, comment, literal .double true, literal .double false, literal .single true,
    literal .single false, template true, template false]

/-- The depths of an interpolation that can be stored: all but zero. -/
def Depth.positive : List Depth :=
  (List.finRange 256).tail

/-- The states of a script, in the order of their words. -/
def ScriptState.all : List ScriptState :=
  plain ++ Depth.positive.map interpolation

/-- Every state that can be stored, in the order of the words. -/
def ResumeState.all : List ResumeState :=
  MarkupState.all.map markup ++ StyleState.all.map style ++ ScriptState.all.map script

/-! ## Decoding -/

/-- What is wrong with a word that encodes no state. -/
inductive StateFault where
  /-- No sub-state has the code. -/
  | unknownCode (raw : UInt32) (code : Nat)
  /-- Bits are set outside the fields of the sub-state. -/
  | strayBits (raw : UInt32)
  /-- An interpolation has no open brace. -/
  | zeroDepth (raw : UInt32)
  deriving DecidableEq, Repr

namespace ResumeState

/-- Whether the second byte of a state's word holds a depth. -/
def hasDepth : ResumeState → Bool
  | script (.interpolation _) => true
  | _ => false

/-- The state of a word. Stray bits in the upper half are reported first, then an unknown code,
then a depth that is zero where it may not be or set where it may not be. -/
def decode (raw : UInt32) : Except StateFault ResumeState :=
  let code := raw.toNat % 256
  let depth := Depth.ofByte (raw.toNat / 256)
  if raw.toNat / 65536 ≠ 0 then .error (.strayBits raw)
  else
    match ofNumber? code depth with
    | none => .error (.unknownCode raw code)
    | some state =>
      if state.hasDepth then if depth.val = 0 then .error (.zeroDepth raw) else .ok state
      else if depth.val ≠ 0 then .error (.strayBits raw)
      else .ok state

end ResumeState

end LineLexer
