import CrateTrace.Decimal.Digits
import CrateTrace.Name.Error

/-!
# Lexemes of a symbol name

A name is cut into lexemes; ASCII blanks between them are dropped. Every lexeme is ASCII, so that
it takes as many bytes as characters.
-/

namespace CrateTrace.Name

inductive Lexeme where
  | pathSeparator
  | less
  | greater
  | comma
  | ampersand
  | asWord
  | forWord
  | implWord
  | lifetime (name : Char)
  /-- An identifier other than `as`, `for` and `impl`. -/
  | word (text : String)
  | closure (index : Option UInt32)
deriving DecidableEq, Repr

/-- A lexeme and the byte range that it takes in the input. -/
structure Token where
  lexeme : Lexeme
  start : Nat
  stop : Nat
deriving DecidableEq, Repr

/-! ## Character classes -/

def isBlank (c : Char) : Bool := c == ' ' || c == '\t' || c == '\n' || c == '\x0c' || c == '\r'

def isWordStart (c : Char) : Bool := c.isAlpha || c == '_'

def isWordPart (c : Char) : Bool := c.isAlphanum || c == '_'

def isLifetimeName (c : Char) : Bool := c.isLower || c == '_'

/-! ## One lexeme -/

def Lexeme.ofWord (text : String) : Lexeme :=
  if text = "as" then .asWord
  else if text = "for" then .forWord
  else if text = "impl" then .implWord
  else .word text

/-- Why no lexeme starts here, and how many characters the fault covers. -/
structure Misfit where
  cause : Cause
  length : Nat

/-- A lexeme at the front of an input, and how many characters it takes after its first. -/
abbrev Front := Except Misfit (Lexeme × Nat)

/-- The number of a closure; one that takes more than 32 bits is forgotten. -/
def closureIndex (digits : List Char) : Option UInt32 :=
  let n := Decimal.decimalValue digits
  if n < UInt32.size then some (UInt32.ofNat n) else none

/-- What stands after a quote: one lowercase letter or `_`, which no word part may follow. -/
def frontLifetime : List Char → Front
  | [] => .error ⟨.malformedLifetime, 1⟩
  | n :: rest =>
    if isLifetimeName n then
      match rest.takeWhile isWordPart with
      | [] => .ok (.lifetime n, 1)
      | excess => .error ⟨.longLifetime, 2 + excess.length⟩
    else .error ⟨.malformedLifetime, 2⟩

/-- What stands after an opening brace: a closure, with or without a number. -/
def frontClosure (rest : List Char) : Front :=
  let digits := (rest.drop "closure#".length).takeWhile Char.isDigit
  if "\x7bclosure\x7d\x7d".toList.isPrefixOf rest then
    .ok (.closure none, "\x7bclosure\x7d\x7d".length)
  else if "closure#".toList.isPrefixOf rest ∧ digits ≠ [] ∧
      rest[("closure#".length + digits.length)]? = some '\x7d' then
    .ok (.closure (closureIndex digits), "closure#".length + digits.length + 1)
  else .error ⟨.unsupportedSegment, 2 + (rest.takeWhile (· ≠ '\x7d')).length⟩

/-- The lexeme that starts with `c`, which is not blank, when `rest` follows. -/
def front (c : Char) (rest : List Char) : Front :=
  match c with
  | ':' => if rest.head? = some ':' then .ok (.pathSeparator, 1) else .error ⟨.loneColon, 1⟩
  | '<' => .ok (.less, 0)
  | '>' => .ok (.greater, 0)
  | ',' => .ok (.comma, 0)
  | '&' => .ok (.ampersand, 0)
  | '\'' => frontLifetime rest
  | '\x7b' => frontClosure rest
  | _ =>
    if isWordStart c then
      let more := rest.takeWhile isWordPart
      .ok (.ofWord (String.ofList (c :: more)), more.length)
    else .error ⟨.unexpectedCharacter, 1⟩

/-! ## The whole input -/

/-- The tokens of an input whose first character stands at byte `start`. -/
def tokensFrom (start : Nat) : List Char → Except ParseError (List Token)
  | [] => .ok []
  | c :: rest =>
    if isBlank c then tokensFrom (start + 1) rest
    else
      match front c rest with
      | .error misfit =>
        .error ⟨misfit.cause, String.ofList ((c :: rest).take misfit.length), start⟩
      | .ok (lexeme, more) =>
        match tokensFrom (start + 1 + more) (rest.drop more) with
        | .error e => .error e
        | .ok tokens => .ok (⟨lexeme, start, start + 1 + more⟩ :: tokens)
termination_by input => input.length
decreasing_by
  · simp
  · simp only [List.length_cons, List.length_drop]; omega

def tokens (input : List Char) : Except ParseError (List Token) := tokensFrom 0 input

end CrateTrace.Name
