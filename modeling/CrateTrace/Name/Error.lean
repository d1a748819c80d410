/-!
# Parse errors of symbol names
-/

namespace CrateTrace.Name

/-- Why a name is refused. -/
inductive Cause where
  | loneColon
  | longLifetime
  | malformedLifetime
  | unsupportedSegment
  | unexpectedCharacter
  | trailingInput
  | expectedClose
  | unclosed
  | referenceHead
  | referenceTrait
  | keyword
  | strayGenerics
  | expectedSegment
deriving DecidableEq, Repr

def Cause.message : Cause → String
  | .loneColon => "expected `::`"
  | .longLifetime => "lifetime must be a single lowercase letter or `_`"
  | .malformedLifetime => "malformed lifetime"
  | .unsupportedSegment => "unsupported compiler-generated segment"
  | .unexpectedCharacter => "unexpected character"
  | .trailingInput => "unexpected trailing input"
  | .expectedClose => "expected `>`"
  | .unclosed => "unclosed `<`"
  | .referenceHead => "expected `as` or `for` after a reference type"
  | .referenceTrait => "trait path cannot be a reference"
  | .keyword => "unexpected keyword"
  | .strayGenerics => "generic arguments without a preceding name"
  | .expectedSegment => "expected path segment"

/-- A refused name: the offending part of the input and the byte at which it starts. -/
structure ParseError where
  cause : Cause
  fragment : String
  position : Nat
deriving DecidableEq, Repr

def ParseError.message (e : ParseError) : String :=
  s!"{e.cause.message} at byte {e.position}: `{e.fragment}`"

end CrateTrace.Name
