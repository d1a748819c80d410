import CrateTrace.Mangling.Punycode
import CrateTrace.Mangling.Reader
import CrateTrace.Text.Escape

/-!
# The name of a symbol

A symbol is read once to tell whether it is sound, without what stands for earlier parts of it, and
once more to print its path in source form. A fault that shows up only then is printed in its place;
behind it every part is a question mark.
-/

namespace CrateTrace.Mangling

/-! ## Printing -/

structure Printer where
  /-- What is left of the symbol. Nothing is read behind a fault. -/
  rest : Option (List Char)
  /-- What is printed, the last piece first, unless printing is skipped. -/
  printed : Option (List String)
  /-- How many bytes may still be printed. -/
  room : Nat
  /-- How many lifetimes are bound. -/
  bound : Nat

/-- Printing ends early, with what is printed, when a piece would take too many bytes. -/
abbrev Printing := StateT Printer (Except (List String))

def print (piece : String) : Printing Unit := do
  let p ← get
  match p.printed with
  | none => return
  | some pieces =>
    if piece.utf8ByteSize ≤ p.room then
      set { p with printed := some (piece :: pieces), room := p.room - piece.utf8ByteSize }
    else throw pieces

def fail (fault : String) : Printing Unit := do
  print fault
  modify ({ · with rest := none })

def invalid : Printing Unit := fail "\x7binvalid syntax\x7d"

def tooDeep : Printing Unit := fail "\x7brecursion limit reached\x7d"

/-- Reads a part, unless there is a fault. -/
def scan {α : Type} (part : Scan α) : Printing (Option α) := do
  match (← get).rest with
  | none =>
    print "?"
    return none
  | some rest =>
    match part rest with
    | none =>
      invalid
      return none
    | some (a, rest) =>
      modify ({ · with rest := some rest })
      return some a

/-- Whether a tag comes next, which then is read. -/
def eat (tag : Char) : Printing Bool := do
  match (← get).rest with
  | some (c :: rest) =>
    if c = tag then modify ({ · with rest := some rest })
    return c = tag
  | _ => return false

def isFaulty : Printing Bool := return (← get).rest.isNone

def isSkipping : Printing Bool := return (← get).printed.isNone

def skipping (part : Printing Unit) : Printing Unit := do
  let printed := (← get).printed
  modify ({ · with printed := none })
  part
  modify ({ · with printed })

/-- Prints a part that stands somewhere else, and goes on behind what stands for it. -/
def follow {α : Type} [Inhabited α] (target : List Char) (part : Printing α) : Printing α := do
  if ← isSkipping then return default
  let rest := (← get).rest
  modify ({ · with rest := some target })
  let a ← part
  modify ({ · with rest })
  return a

/-- Items up to an `E`, and how many there are. Each of them takes at least one character, so there
are no more than `most` if this is more than what is left. -/
def itemsFrom (separator : String) (item : Printing Unit) : (count most : Nat) → Printing Nat
  | count, 0 => return count
  | count, most + 1 => do
    if (← isFaulty) || (← eat 'E') then return count
    if 0 < count then print separator
    item
    itemsFrom separator item (count + 1) most

def items (separator : String) (item : Printing Unit) : Printing Nat := do
  itemsFrom separator item 0 (((← get).rest.getD []).length + 1)

/-! ## Identifiers and lifetimes -/

/-- The characters of an identifier, or its punycode if that does not decode. -/
def Ident.print (i : Ident) : Printing Unit := do
  match Punycode.decode i.basic i.gaps with
  | some decoded => decoded.forM fun c => Mangling.print c.toString
  | none =>
    if i.gaps = [] then Mangling.print (String.ofList i.basic)
    else
      Mangling.print "punycode\x7b"
      if i.basic ≠ [] then
        Mangling.print (String.ofList i.basic)
        Mangling.print "-"
      Mangling.print (String.ofList i.gaps)
      Mangling.print "\x7d"

/-- The name of a lifetime counted from the innermost binder, 0 for none in particular. The names are
letters while there are any. -/
def lifetime (index : Nat) : Printing Unit := do
  if ← isSkipping then return
  let bound := (← get).bound
  print "'"
  if index = 0 then print "_"
  else if bound < index then invalid
  else if bound - index < 26 then print (Char.ofNat ('a'.toNat + (bound - index))).toString
  else
    print "_"
    print (toString (bound - index))

/-- Binds lifetimes one after the other. -/
def bindFrom : (place count : Nat) → Printing Unit
  | _, 0 => return
  | place, count + 1 => do
    if 0 < place then print ", "
    modify fun p => { p with bound := p.bound + 1 }
    lifetime 1
    bindFrom (place + 1) count

/-- A part in which lifetimes may be bound. -/
def binding (part : Printing Unit) : Printing Unit := do
  let some count ← scan (tagged62 'G') | return
  if ← isSkipping then part
  else
    if 0 < count then
      print "for<"
      bindFrom 0 count
      print "> "
    part
    modify fun p => { p with bound := p.bound - count }

/-! ## Constants of basic types -/

/-- Integers that do not fit in 64 bits stay as they are written. -/
def integer : Printing Unit := do
  let some digits ← scan nibbles | return
  match nibblesValue? digits with
  | some n => print (toString n)
  | none =>
    print "0x"
    print (String.ofList digits)

def boolean : Printing Unit := do
  let some digits ← scan nibbles | return
  match nibblesValue? digits with
  | some 0 => print "false"
  | some 1 => print "true"
  | _ => invalid

/-- Characters in quotes. A quote of the other kind stands for itself. -/
def quoted (quote : Char) (text : List Char) : Printing Unit := do
  print quote.toString
  text.forM fun c => do
    if c ≠ quote ∧ (c = '\'' ∨ c = '"') then print c.toString
    else (Text.escapeDebug c).forM fun e => print e.toString
  print quote.toString

def character : Printing Unit := do
  let some digits ← scan nibbles | return
  match nibblesValue? digits with
  | some n => if n.isValidChar then quoted '\'' [Char.ofNat n] else invalid
  | none => invalid

def string : Printing Unit := do
  let some digits ← scan nibbles | return
  match nibblesText? digits with
  | some text => quoted '"' text.toList
  | none => invalid

/-! ## Paths and types -/

def basicType? : Char → Option String
  | 'b' => some "bool"
  | 'c' => some "char"
  | 'e' => some "str"
  | 'u' => some "()"
  | 'a' => some "i8"
  | 's' => some "i16"
  | 'l' => some "i32"
  | 'x' => some "i64"
  | 'n' => some "i128"
  | 'i' => some "isize"
  | 'h' => some "u8"
  | 't' => some "u16"
  | 'm' => some "u32"
  | 'y' => some "u64"
  | 'o' => some "u128"
  | 'j' => some "usize"
  | 'f' => some "f32"
  | 'd' => some "f64"
  | 'z' => some "!"
  | 'p' => some "_"
  | 'v' => some "..."
  | _ => none

/-- What a namespace adds to the path of its parent. -/
def nested (space : Option Char) (number : Nat) (name : Ident) : Printing Unit := do
  match space with
  | none =>
    if !name.isEmpty then
      print "::"
      name.print
  | some space =>
    print "::\x7b"
    print (if space = 'C' then "closure" else if space = 'S' then "shim" else space.toString)
    if !name.isEmpty then
      print ":"
      name.print
    print "#"
    print (toString number)
    print "\x7d"

/-- The calling convention of a function pointer, if one is given. An identifier has `_` for the
hyphens of its name. There is no result after a fault. -/
def callingConvention : Printing (Option (Option String)) := do
  if !(← eat 'K') then return some none
  if ← eat 'C' then return some (some "C")
  let some abi ← scan ident | return none
  if abi.basic = [] ∨ abi.gaps ≠ [] then
    invalid
    return none
  return some (some (String.ofList (abi.basic.map fun c => if c = '_' then '-' else c)))

/-- Associated types of a trait and what they are, in an argument list that may be open already. -/
def associated (type : Printing Unit) : (isOpen : Bool) → (most : Nat) → Printing Unit
  | isOpen, 0 => if isOpen then print ">" else return
  | isOpen, most + 1 => do
    if ← eat 'p' then
      print (if isOpen then ", " else "<")
      let some name ← scan ident | return
      name.print
      print " = "
      type
      associated type true most
    else if isOpen then print ">"

section

-- What is read is nested in no more than `room` levels further.
variable (symbol : List Char)

mutual

/-- In a value, arguments stand behind a separator. -/
def path (room : Nat) (inValue : Bool) : Printing Unit := do
  let some tag ← scan next | return
  match room with
  | 0 => tooDeep
  | room + 1 =>
    match tag with
    | 'C' =>
      let some _ ← scan disambiguator | return
      let some name ← scan ident | return
      name.print
    | 'N' =>
      let some space ← scan namespace? | return
      path room inValue
      if ← isFaulty then print "::"
      let some number ← scan disambiguator | return
      let some name ← scan ident | return
      nested space number name
    | 'M' | 'X' | 'Y' =>
      if tag ≠ 'Y' then
        let some _ ← scan disambiguator | return
        -- The place of an `impl` is not part of the name.
        skipping (path room false)
      print "<"
      type room
      if tag ≠ 'M' then
        print " as "
        path room false
      print ">"
    | 'I' =>
      path room inValue
      if inValue then print "::"
      print "<"
      let _ ← items ", " (argument room)
      print ">"
    | 'B' =>
      let some target ← scan (earlier symbol) | return
      match room with
      | 0 => tooDeep
      | room + 1 => follow target (path room inValue)
    | _ => invalid
termination_by 4 * room

def argument (room : Nat) : Printing Unit := do
  if ← eat 'L' then
    let some index ← scan number62 | return
    lifetime index
  else if ← eat 'K' then const room false
  else type room
termination_by 4 * room + 1

def type (room : Nat) : Printing Unit := do
  let some tag ← scan next | return
  match basicType? tag, room with
  | some name, _ => print name
  | none, 0 => tooDeep
  | none, room + 1 =>
    match tag with
    | 'R' | 'Q' =>
      print "&"
      if ← eat 'L' then
        let some index ← scan number62 | return
        if index ≠ 0 then
          lifetime index
          print " "
      if tag = 'Q' then print "mut "
      type room
    | 'P' | 'O' =>
      print "*"
      print (if tag = 'O' then "mut " else "const ")
      type room
    | 'A' | 'S' =>
      print "["
      type room
      if tag = 'A' then
        print "; "
        const room true
      print "]"
    | 'T' =>
      print "("
      let count ← items ", " (type room)
      if count = 1 then print ","
      print ")"
    | 'F' => binding (function room)
    | 'D' =>
      print "dyn "
      binding do
        let _ ← items " + " (objectTrait room)
      if ← eat 'L' then
        let some index ← scan number62 | return
        if index ≠ 0 then
          print " + "
          lifetime index
      else invalid
    | 'B' =>
      let some target ← scan (earlier symbol) | return
      match room with
      | 0 => tooDeep
      | room + 1 => follow target (type room)
    | _ =>
      modify fun p => { p with rest := p.rest.map (tag :: ·) }
      path room false
termination_by 4 * room

/-- A function pointer. No result is printed for the unit type. -/
def function (room : Nat) : Printing Unit := do
  let isUnsafe ← eat 'U'
  let some abi ← callingConvention | return
  if isUnsafe then print "unsafe "
  if let some name := abi then
    print "extern \""
    print name
    print "\" "
  print "fn("
  let _ ← items ", " (type room)
  print ")"
  if !(← eat 'u') then
    print " -> "
    type room
termination_by 4 * room + 1

/-- The path of a trait; tells whether its argument list is still open. -/
def openPath (room : Nat) : Printing Bool := do
  if ← eat 'B' then
    let some target ← scan (earlier symbol) | return false
    match room with
    | 0 =>
      tooDeep
      return false
    | room + 1 => follow target (openPath room)
  else if ← eat 'I' then
    path room false
    print "<"
    let _ ← items ", " (argument room)
    return true
  else
    path room false
    return false
termination_by 4 * room + 2

def objectTrait (room : Nat) : Printing Unit := do
  let isOpen ← openPath room
  associated (type room) isOpen (((← get).rest.getD []).length + 1)
termination_by 4 * room + 3

/-- A constant. Outside of a value, all but basic ones are put in braces. -/
def const (room : Nat) (inValue : Bool) : Printing Unit := do
  let some tag ← scan next | return
  match room with
  | 0 => tooDeep
  | room + 1 =>
    let opening := if inValue then "" else "\x7b"
    let closing := if inValue then "" else "\x7d"
    match tag with
    | 'p' => print "_"
    | 'h' | 't' | 'm' | 'y' | 'o' | 'j' => integer
    | 'a' | 's' | 'l' | 'x' | 'n' | 'i' =>
      if ← eat 'n' then print "-"
      integer
    | 'b' => boolean
    | 'c' => character
    | 'e' =>
      print opening
      print "*"
      string
      print closing
    | 'R' | 'Q' =>
      -- A reference to a text is the text in quotes.
      let isText ← if tag = 'R' then eat 'e' else pure false
      if isText then string
      else
        print opening
        print (if tag = 'Q' then "&mut " else "&")
        const room true
        print closing
    | 'A' =>
      print opening
      print "["
      let _ ← items ", " (const room true)
      print "]"
      print closing
    | 'T' =>
      print opening
      print "("
      let count ← items ", " (const room true)
      if count = 1 then print ","
      print ")"
      print closing
    | 'V' =>
      print opening
      path room true
      let some shape ← scan next | return
      match shape with
      | 'U' => print closing
      | 'T' =>
        print "("
        let _ ← items ", " (const room true)
        print ")"
        print closing
      | 'S' =>
        print " \x7b "
        let _ ← items ", " (field room)
        print " \x7d"
        print closing
      | _ => invalid
    | 'B' =>
      let some target ← scan (earlier symbol) | return
      match room with
      | 0 => tooDeep
      | room + 1 => follow target (const room inValue)
    | _ => invalid
termination_by 4 * room

/-- A field of a structure and its value. -/
def field (room : Nat) : Printing Unit := do
  let some _ ← scan disambiguator | return
  let some name ← scan ident | return
  name.print
  print ": "
  const room true
termination_by 4 * room + 1

end

end

/-! ## Symbols -/

/-- How many levels may be nested. -/
def maxDepth : Nat := 500

/-- How many bytes a name may take. -/
def maxSize : Nat := 1000000

/-- What follows the path at the front of the rest of a symbol, if that is sound. -/
def behindPath? (symbol rest : List Char) : Option (List Char) :=
  match (path symbol maxDepth false).run ⟨some rest, none, 0, 0⟩ with
  | .ok (_, p) => p.rest
  | .error _ => none

/-- The path of a sound symbol. -/
def pathText (symbol : List Char) : String :=
  let pieces :=
    match (path symbol maxDepth true).run ⟨some symbol, some [], maxSize, 0⟩ with
    | .ok (_, p) => p.printed.getD []
    | .error pieces => "\x7bsize limit reached\x7d" :: pieces
  String.join pieces.reverse

/-- The name of a symbol behind its mark, and its suffix. The path of the crate for which the symbol
was made may follow its own. -/
def name? (symbol : List Char) : Option (List Char × List Char) :=
  if symbol.head?.any Char.isUpper ∧ symbol.all (·.toNat < 128) then do
    let rest ← behindPath? symbol symbol
    let suffix ← if rest.head?.any Char.isUpper then behindPath? symbol rest else some rest
    return ((pathText symbol).toList, suffix)
  else none

end CrateTrace.Mangling
