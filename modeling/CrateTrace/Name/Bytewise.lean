import CrateTrace.Name.Parser

/-!
# Reading a name byte by byte

A reader that steps over the bytes of a name and takes parts of it by byte offsets. It fails, with
`none`, where a byte is not there or where a part would not lie between two character boundaries.
-/

namespace CrateTrace.Name

/-! ## Bytes and parts of a text -/

/-- The byte at an offset, as the character of that number. -/
def byteAt? (text : String) (pos : Nat) : Option Char :=
  text.toByteArray.data.toList[pos]?.map Char.ofUInt8

def isBoundary (text : String) (pos : Nat) : Bool := (⟨pos⟩ : String.Pos.Raw).isValid text

/-- The part of a text between two byte offsets. -/
def part? (text : String) (start stop : Nat) : Option String :=
  if start ≤ stop ∧ isBoundary text start ∧ isBoundary text stop then
    some (String.Pos.Raw.extract text ⟨start⟩ ⟨stop⟩)
  else none

def partFrom? (text : String) (start : Nat) : Option String := part? text start text.utf8ByteSize

/-- The width of the first character. -/
def firstWidth? (text : String) : Option Nat := text.toList.head?.map Char.utf8Size

/-- The end of the bytes from `pos` on that `p` holds for. -/
def runEnd (p : Char → Bool) (text : String) (pos : Nat) : Nat :=
  if pos < text.utf8ByteSize ∧ (byteAt? text pos).any p then runEnd p text (pos + 1) else pos
termination_by text.utf8ByteSize - pos

/-- The next character boundary. -/
def boundaryFrom (text : String) (pos : Nat) : Nat :=
  if pos < text.utf8ByteSize ∧ ¬ isBoundary text pos then boundaryFrom text (pos + 1) else pos
termination_by text.utf8ByteSize - pos

/-! ## Errors -/

/-- The error about the bytes from `start` to `stop`. An end behind the text or inside a character
is moved. -/
def errorAt? (text : String) (start stop : Nat) (cause : Cause) : Option ParseError :=
  if start ≤ text.utf8ByteSize then
    let stop := boundaryFrom text (max start (min stop text.utf8ByteSize))
    (part? text start stop).map (⟨cause, ·, start⟩)
  else none

def refuse? {α : Type} (text : String) (start stop : Nat) (cause : Cause) :
    Option (Except ParseError α) :=
  (errorAt? text start stop cause).map .error

/-! ## Lexemes -/

/-- A lexeme at an offset, and how many bytes it takes after its first. -/
abbrev FrontAt := Option (Except ParseError (Lexeme × Nat))

/-- What stands behind the name of a lifetime decides whether it is one. -/
def namedLifetimeAt? (text : String) (start : Nat) (name : Char) : FrontAt :=
  if (byteAt? text (start + 2)).any isWordPart then
    refuse? text start (runEnd isWordPart text (start + 2)) .longLifetime
  else some (.ok (.lifetime name, 1))

def lifetimeAt? (text : String) (start : Nat) : FrontAt :=
  match (byteAt? text (start + 1)).filter isLifetimeName with
  | some name => namedLifetimeAt? text start name
  | none =>
    (partFrom? text (start + 1)).bind fun rest =>
      refuse? text start (start + 1 + (firstWidth? rest).getD 0) .malformedLifetime

/-- The number of a closure, and the width of its digits, if a brace stands behind them. -/
def closureNumber? (tail : String) : Option (Option (String × Nat)) :=
  let width := runEnd Char.isDigit tail 0
  if 0 < width ∧ byteAt? tail width = some '\x7d' then
    (part? tail 0 width).map fun digits => some (digits, width)
  else some none

def unsupportedAt? (text rest : String) (start : Nat) : FrontAt :=
  let before := rest.toList.takeWhile (· ≠ '\x7d')
  let stop := if '\x7d' ∈ rest.toList then start + byteLength before + 1 else text.utf8ByteSize
  refuse? text start stop .unsupportedSegment

def closureAt? (text : String) (start : Nat) : FrontAt :=
  (partFrom? text start).bind fun rest =>
    if "\x7b\x7bclosure\x7d\x7d".toList.isPrefixOf rest.toList then
      some (.ok (.closure none, "\x7bclosure\x7d\x7d".length))
    else if "\x7bclosure#".toList.isPrefixOf rest.toList then
      (closureNumber? (String.ofList (rest.toList.drop "\x7bclosure#".length))).bind fun
        | some (digits, width) =>
          some (.ok (.closure (closureIndex digits.toList), "closure#".length + width + 1))
        | none => unsupportedAt? text rest start
    else unsupportedAt? text rest start

def wordAt? (text : String) (start : Nat) : FrontAt :=
  let stop := runEnd isWordPart text start
  (part? text start stop).map fun word => .ok (.ofWord word, stop - start - 1)

def unexpectedAt? (text : String) (start : Nat) : FrontAt :=
  (partFrom? text start).bind fun rest =>
    refuse? text start (start + (firstWidth? rest).getD 1) .unexpectedCharacter

/-- The lexeme at an offset where the byte `c`, which is not blank, stands. -/
def frontAt? (text : String) (start : Nat) (c : Char) : FrontAt :=
  match c with
  | ':' =>
    if byteAt? text (start + 1) = some ':' then some (.ok (.pathSeparator, 1))
    else refuse? text start (start + 1) .loneColon
  | '<' => some (.ok (.less, 0))
  | '>' => some (.ok (.greater, 0))
  | ',' => some (.ok (.comma, 0))
  | '&' => some (.ok (.ampersand, 0))
  | '\'' => lifetimeAt? text start
  | '\x7b' => closureAt? text start
  | c => if isWordStart c then wordAt? text start else unexpectedAt? text start

def tokensAt? (text : String) (pos : Nat) : Option (Except ParseError (List Token)) :=
  if pos < text.utf8ByteSize then
    (byteAt? text pos).bind fun c =>
      if isBlank c then tokensAt? text (pos + 1)
      else
        (frontAt? text pos c).bind fun
          | .error e => some (.error e)
          | .ok (lexeme, more) =>
            (tokensAt? text (pos + 1 + more)).map
              (Except.map (⟨lexeme, pos, pos + 1 + more⟩ :: ·))
  else some (.ok [])
termination_by text.utf8ByteSize - pos

/-! ## Names -/

/-- The token before which `left` tokens, itself among them, are left. -/
def tokenLeft? (tokens : List Token) (left : Nat) : Option Token :=
  if left ≤ tokens.length then tokens[tokens.length - left]? else none

def Place.range? (text : String) (tokens : List Token) : Place → Option (Nat × Nat)
  | .next left =>
    if left = 0 then some (text.utf8ByteSize, text.utf8ByteSize)
    else (tokenLeft? tokens left).map fun t => (t.start, t.stop)
  | .onward left => (tokenLeft? tokens left).map fun t => (t.start, text.utf8ByteSize)
  | .between left upTo =>
    (tokenLeft? tokens left).bind fun first =>
      (tokenLeft? tokens (upTo + 1)).map fun last => (first.start, last.stop)

def Fault.locate? (text : String) (tokens : List Token) (f : Fault) : Option ParseError :=
  (f.place.range? text tokens).bind fun (start, stop) => errorAt? text start stop f.cause

/-- Reads a name by its bytes. -/
def parse? (name : String) : Option (Except ParseError Declaration) :=
  (tokensAt? name 0).bind fun
    | .error e => some (.error e)
    | .ok tokens =>
      match declaration (tokens.map (·.lexeme)) with
      | .error f => (f.locate? name tokens).map .error
      | .ok d => some (.ok d)

end CrateTrace.Name
