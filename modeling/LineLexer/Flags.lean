import LineLexer.Text.Basic

/-!
# Token flags

The attributes of a token, one bit each in a byte. Two bits have a meaning and a name; the others
can be set and tested but are not named when flags are written out.
-/

namespace LineLexer

/-- A set of token attributes, as the bits of a byte. -/
structure Flags where
  bits : UInt8
  deriving DecidableEq, Repr

namespace Flags

/-- The mask of the attribute: the token's text is a link inside a comment or a literal. -/
def linkBit : UInt8 := 1

/-- The mask of the attribute: the name is missing from the vocabulary. -/
def unknownBit : UInt8 := 2

/-- No attribute. -/
def empty : Flags := ⟨0⟩

/-- Whether one of the bits of a mask is set. -/
def contains (flags : Flags) (mask : UInt8) : Bool :=
  flags.bits &&& mask != 0

/-- Flags with all bits of a mask set. -/
def set (flags : Flags) (mask : UInt8) : Flags :=
  ⟨flags.bits ||| mask⟩

/-- The flags of a name: unknown unless the vocabulary holds it. -/
def ofKnown (known : Bool) : Flags :=
  if known then empty else empty.set unknownBit

/-- Whether the token is a link. -/
def isLink (flags : Flags) : Bool :=
  flags.contains linkBit

/-- Whether the token is a name missing from the vocabulary. -/
def isUnknown (flags : Flags) : Bool :=
  flags.contains unknownBit

/-- The names of the attributes that have one, separated by a comma. -/
def describe (flags : Flags) : Text :=
  match flags.isLink, flags.isUnknown with
  | true, true => "link,unknown".toList
  | true, false => "link".toList
  | false, true => "unknown".toList
  | false, false => []

end Flags

end LineLexer
