import CrateTrace.Command.Format
import CrateTrace.Text.Split

/-!
# Arguments

Options have long names. A value stands behind its option, or behind an equals sign. What follows a
lone `--` is no option.
-/

namespace CrateTrace.Command

/-! ## What is accepted -/

/-- How an option is given. -/
inductive Arity where
  /-- Without a value, once. -/
  | flag
  /-- With a value, once. -/
  | single
  /-- With a value, as often as one likes. -/
  | repeated
deriving DecidableEq, Repr

/-- How many words a command takes beside its options. -/
inductive Words where
  | none
  | one
  | any
deriving DecidableEq, Repr

inductive Verb where
  | initProject
  | projectInfo
  | ingestSources
  | ingestBinaries
  | extract
  | attachSignatures
  | runMatch
  | status
  | listMatches
  | listFunctions
  | parseName
  | signatures
deriving DecidableEq, Repr

/-- A command, its name and what it takes. -/
structure Form where
  verb : Verb
  name : String
  options : List (String × Arity)
  required : List String
  words : Words
deriving DecidableEq, Repr

def rootOption : String × Arity := ("root", .single)

def jsonOption : String × Arity := ("json", .flag)

def forms : List Form := [
  ⟨.initProject, "init-project",
    [rootOption, ("name", .single), ("want-crate", .repeated)], [], .none⟩,
  ⟨.projectInfo, "project-info", [rootOption, jsonOption], [], .none⟩,
  ⟨.ingestSources, "ingest-mir", [rootOption, ("force", .flag), jsonOption], [], .any⟩,
  ⟨.ingestBinaries, "ingest-bin", [rootOption, ("force", .flag), jsonOption], [], .any⟩,
  ⟨.extract, "extract",
    [rootOption, ("binary", .single), ("name", .single), ("output", .single)],
    ["binary"], .none⟩,
  ⟨.attachSignatures, "attach-signatures",
    [rootOption, ("crate", .single), ("version", .single), ("dump", .single), jsonOption],
    ["crate", "version", "dump"], .none⟩,
  ⟨.runMatch, "match",
    [rootOption, ("crate", .single), ("version", .single), ("candidate", .repeated), jsonOption],
    ["crate", "version"], .none⟩,
  ⟨.status, "status", [rootOption, jsonOption], [], .none⟩,
  ⟨.listMatches, "list-matches", [rootOption, ("crate", .single), ("format", .single)], [], .none⟩,
  ⟨.listFunctions, "list-functions",
    [rootOption, ("binary", .single), ("status", .single), ("format", .single)],
    ["binary"], .none⟩,
  ⟨.parseName, "parse-name", [jsonOption], [], .one⟩,
  ⟨.signatures, "signature",
    [("binary", .single), ("function", .single), jsonOption], ["binary"], .none⟩]

/-! ## What is given -/

/-- What has been read of the arguments. -/
structure Given where
  form : Option Form
  flags : List String
  values : List (String × String)
  words : List String
  /-- Options that hold for all commands, given where they are given now: before the command or
  behind it. -/
  seen : List String
  verbosity : Nat
  /-- The option whose value comes next. -/
  pending : Option String
  /-- No more options follow. -/
  literal : Bool
deriving DecidableEq, Repr

def Given.start : Given := ⟨none, [], [], [], [], 0, none, false⟩

/-- Why the arguments are not read to their end. -/
inductive Stop where
  | version
  | misuse
deriving DecidableEq, Repr

/-- The option that sets the form of the log. -/
def logOption : String := "log-format"

def Given.arity? (g : Given) (option : String) : Option Arity :=
  if option = logOption then some .single
  else g.form.bind fun form => form.options.lookup option

def isValue (option value : String) : Bool :=
  if option = logOption then (LogFormat.ofText? value).isSome
  else if option = "format" then (OutputFormat.ofText? value).isSome
  else true

def Given.addValue (g : Given) (option value : String) : Except Stop Given :=
  if !isValue option value then .error .misuse
  else if option = logOption then
    if g.seen.contains option then .error .misuse
    else .ok { g with seen := option :: g.seen, pending := none }
  else if g.arity? option = some .single ∧ (g.values.lookup option).isSome then .error .misuse
  else .ok { g with values := g.values ++ [(option, value)], pending := none }

def Given.addFlag (g : Given) (option : String) : Except Stop Given :=
  if g.flags.contains option then .error .misuse else .ok { g with flags := option :: g.flags }

/-- Letters behind a single hyphen. -/
def Given.addLetters (g : Given) : List Char → Except Stop Given
  | [] => .ok g
  | 'v' :: letters => { g with verbosity := g.verbosity + 1 }.addLetters letters
  | 'V' :: _ => .error (if g.form.isNone then .version else .misuse)
  | _ :: _ => .error .misuse

/-- An option, with a value if there is one behind an equals sign. -/
def Given.addOption (g : Given) (option : String) (value : Option String) : Except Stop Given :=
  match g.arity? option, value with
  | some .flag, none => g.addFlag option
  | some .flag, some _ => .error .misuse
  | some _, some value => g.addValue option value
  | some _, none => .ok { g with pending := some option }
  | none, none =>
    if option = "verbose" then .ok { g with verbosity := g.verbosity + 1 }
    else if option = "version" ∧ g.form.isNone then .error .version
    else .error .misuse
  | none, some _ => .error .misuse

/-- A word is the command, or one that the command takes. -/
def Given.addWord (g : Given) (word : String) : Except Stop Given :=
  match g.form with
  | none =>
    if g.literal then .error .misuse
    else
      match forms.find? (·.name == word) with
      | some form => .ok { g with form := some form, seen := [] }
      | none => .error .misuse
  | some form =>
    match form.words, g.words with
    | .any, _ | .one, [] => .ok { g with words := g.words ++ [word] }
    | _, _ => .error .misuse

/-- Whether an argument is an option by its looks. A lone hyphen is a word. -/
def isOption (argument : String) : Bool := argument.startsWith "-" && argument != "-"

def Given.add (g : Given) (argument : String) : Except Stop Given :=
  match g.pending with
  | some option => if isOption argument then .error .misuse else g.addValue option argument
  | none =>
    if g.literal || !isOption argument then g.addWord argument
    else if argument = "--" then .ok { g with literal := true }
    else
      match argument.toList with
      | '-' :: '-' :: rest =>
        match Text.splitAt? ['='] rest with
        | some (option, value) => g.addOption (String.ofList option) (some (String.ofList value))
        | none => g.addOption (String.ofList rest) none
      | letters => g.addLetters (letters.drop 1)

/-- Nothing that the command needs is missing. -/
def Given.isComplete (g : Given) : Bool :=
  g.pending.isNone &&
    match g.form with
    | none => true
    | some form =>
      (form.required.all fun option => (g.values.lookup option).isSome) &&
        (form.words != .one || g.words.length == 1)

def read (arguments : List String) : Except Stop Given :=
  match arguments.foldlM Given.add .start with
  | .error e => .error e
  | .ok g => if g.isComplete then .ok g else .error .misuse

/-! ## Values -/

namespace Given

def flag (g : Given) (option : String) : Bool := g.flags.contains option

def value? (g : Given) (option : String) : Option String := g.values.lookup option

def value (g : Given) (option default : String) : String := (g.value? option).getD default

def valuesOf (g : Given) (option : String) : List String :=
  g.values.filterMap fun (name, value) => if name = option then some value else none

def root (g : Given) : String := g.value "root" "."

def json (g : Given) : Bool := g.flag "json"

def format (g : Given) : OutputFormat := ((g.value? "format").bind OutputFormat.ofText?).getD .text

end Given

end CrateTrace.Command
