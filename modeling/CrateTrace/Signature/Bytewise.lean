import CrateTrace.Name.Bytewise
import CrateTrace.Signature.Pattern

/-!
# Reading a signature by byte offsets

A reader that looks at the bytes of a text and takes its groups by byte offsets. It fails, with
`none`, where a group would not lie between two character boundaries.
-/

namespace CrateTrace.Signature

open Name (part?)

/-- How many bytes the text of a signature has. -/
def textBytes : Nat := 2 * groupCount

def bytesOfText (text : String) : List UInt8 := text.toByteArray.data.toList

/-- Text whose bytes are one character each. -/
def isAsciiText (text : String) : Bool := (bytesOfText text).all (· < 0x80)

def isHexByte (b : UInt8) : Bool := (0x30 ≤ b && b ≤ 0x39) || (0x61 ≤ b && b ≤ 0x66)

/-- The group that a part of a text is. -/
def Group.ofPart? (part : String) : Option Group :=
  if part = ".." then some .wildcard
  else if part = "--" then some .filler
  else if (bytesOfText part).all isHexByte then
    ((Text.hexNumber? part.toList).filter (· < 0x100)).map fun n => .byte (.ofNat n)
  else none

def groupAt? (text : String) (offset : Nat) : Option (Except PatternError Group) :=
  (part? text offset (offset + 2)).map fun part =>
    match Group.ofPart? part with
    | none => .error (.group part offset)
    | some group => .ok group

/-- As many groups as are `left` from an offset on. -/
def groupsAt? (text : String) (offset : Nat) :
    (left : Nat) → Option (Except PatternError (List Group))
  | 0 => some (.ok [])
  | left + 1 =>
    (groupAt? text offset).bind fun
      | .error e => some (.error e)
      | .ok group => (groupsAt? text (offset + 2) left).map (Except.map (group :: ·))

/-- Reads a signature by its bytes. -/
def Pattern.ofText? (text : String) : Option (Except PatternError Pattern) :=
  if text.utf8ByteSize = textBytes ∧ isAsciiText text then
    (groupsAt? text 0 groupCount).map (Except.map Pattern.mk)
  else some (.error (.length text.length))

end CrateTrace.Signature
