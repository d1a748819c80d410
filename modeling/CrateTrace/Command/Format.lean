import CrateTrace.Json.Printer
import CrateTrace.Yaml.Printer

/-!
# Forms of output

What a command prints, and what it logs.
-/

namespace CrateTrace.Command

/-! ## Listings -/

inductive OutputFormat where
  | text
  | json
  | yaml
deriving DecidableEq, Repr

def OutputFormat.ofText? : String → Option OutputFormat
  | "text" => some .text
  | "json" => some .json
  | "yaml" => some .yaml
  | _ => none

/-- One line, with its end. -/
def line (text : String) : String := text ++ "\n"

def lines (texts : List String) : String := String.join (texts.map line)

def prettyLine (j : Json) : String := line j.pretty

/-- A listing in a format; as text it is what the command makes of it. -/
def structured (format : OutputFormat) (value : Json) (text : String) : String :=
  match format with
  | .text => text
  | .json => prettyLine value
  | .yaml => Yaml.text value

/-! ## Logging -/

inductive LogFormat where
  | pretty
  | json
deriving DecidableEq, Repr

/-- The case does not matter. No letter of these words is the small form of one beyond ASCII. -/
def LogFormat.ofText? (text : String) : Option LogFormat :=
  match text.toLower with
  | "pretty" | "text" => some .pretty
  | "json" => some .json
  | _ => none

def LogFormat.refusal (text : String) : String :=
  s!"Unknown log format: {text}. Use 'pretty' or 'json'"

inductive LogLevel where
  | info
  | debug
  | trace
deriving DecidableEq, Repr

/-- The more often verbosity is asked for, the more is logged. -/
def LogLevel.ofVerbosity : Nat → LogLevel
  | 0 => .info
  | 1 => .debug
  | _ => .trace

end CrateTrace.Command
