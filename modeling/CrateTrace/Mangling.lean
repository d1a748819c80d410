/-!
# Demangling

Rust symbols come in two manglings, which are told by what they start with. What the rest stands for
is read by a demangler that the program is given.
-/

namespace CrateTrace.Mangling

/-- How a Rust symbol may start. Some platforms put one more underscore in front. -/
def marks : List String := ["_ZN", "__ZN", "_R", "__R"]

def hasMark (symbol : String) : Bool := marks.any fun mark => mark.toList.isPrefixOf symbol.toList

/-- Reads symbols of both manglings. It gives names without the hashes and numbers that tell builds
and crates apart, so that they stay the same from build to build; there is none if the symbol is not
sound. -/
abbrev Demangler := (symbol : String) → Option String

inductive DemangleError where
  | unmarked (symbol : String)
  | malformed (symbol : String)
deriving DecidableEq, Repr

def DemangleError.message : DemangleError → String
  | .unmarked symbol => s!"`{symbol}` does not use a recognized mangling prefix"
  | .malformed symbol => s!"`{symbol}` could not be demangled"

/-- The readable name of a symbol. -/
def demangle (demangler : Demangler) (symbol : String) : Except DemangleError String :=
  if hasMark symbol then
    match demangler symbol with
    | some name => .ok name
    | none => .error (.malformed symbol)
  else .error (.unmarked symbol)

end CrateTrace.Mangling
