import CrateTrace.Store.Basic

/-!
# Database files

A database file says which version of the schema it has, and holds the tables of that version. A
file without a schema has version 0.
-/

namespace CrateTrace.Store

structure Database where
  version : Int
  crates : Option (Table CrateVersion)
  binaries : Option (Table Binary)
  sources : Option (Table SourceColumns)
  functions : Option (Table BinaryColumns)
  runs : Option (Table RunColumns)
deriving DecidableEq

namespace Database

/-- A file without tables. A version that takes more than 32 bits counts as the oldest. -/
def blank (version : Int) : Database :=
  ⟨if Int32.minValue.toInt ≤ version ∧ version ≤ Int32.maxValue.toInt then version else oldestVersion,
    none, none, none, none, none⟩

/-! ## Migration

Opening a file takes steps, each of which is written as a whole. The file that comes of them is given
by `migrate`.
-/

/-- The tables of version 1. -/
def addUnits (d : Database) : Database :=
  { d with
    version := 1
    crates := some (d.crates.getD .empty)
    binaries := some (d.binaries.getD .empty)
    sources := some (d.sources.getD .empty)
    functions := some (d.functions.getD .empty) }

/-- The table of version 2. -/
def addRuns (d : Database) : Database :=
  { d with version := 2, runs := some (d.runs.getD .empty) }

/-- Brings a file to the current version. Tables that are there stay as they are; a newer version is
refused. -/
def migrate (d : Database) : Except StoreError Database :=
  if currentVersion < d.version then .error (.unsupportedVersion d.version)
  else
    let d := if d.version = oldestVersion then d.addUnits else d
    .ok (if d.version < currentVersion then d.addRuns else d)

/-- Steps on a file. What is written before one of them fails is there. -/
abbrev Steps := ExceptT StoreError (StateM Database)

namespace Steps

def on (steps : Steps Unit) (d : Database) : Except StoreError Unit × Database :=
  StateT.run steps.run d

def refuseNewer : Steps Unit := do
  let version := (← get).version
  if currentVersion < version then throw (.unsupportedVersion version)

def makeUnits : Steps Unit := do
  if (← get).version = oldestVersion then modify addUnits

def makeRuns : Steps Unit := do
  if (← get).version < currentVersion then modify addRuns

end Steps

/-- Opens a file: the answer, and what is in the file then. -/
def opening (d : Database) : Except StoreError Unit × Database :=
  Steps.on (do Steps.refuseNewer; Steps.makeUnits; Steps.makeRuns) d

/-! ## Tables -/

def tableNames (d : Database) : List String :=
  (if d.binaries.isSome then ["binaries"] else []) ++
  (if d.functions.isSome then ["binary_functions"] else []) ++
  (if d.crates.isSome then ["crates"] else []) ++
  (if d.runs.isSome then ["match_runs"] else []) ++
  (if d.sources.isSome then ["source_functions"] else [])

/-- The store in a file with all tables. -/
def store (d : Database) : Except StoreError Store :=
  match d.crates, d.binaries, d.sources, d.functions, d.runs with
  | some crates, some binaries, some sources, some functions, some runs =>
    .ok ⟨crates, binaries, sources, functions, runs⟩
  | none, _, _, _, _ => .error (.missingTable "crates")
  | _, none, _, _, _ => .error (.missingTable "binaries")
  | _, _, none, _, _ => .error (.missingTable "source_functions")
  | _, _, _, none, _ => .error (.missingTable "binary_functions")
  | _, _, _, _, none => .error (.missingTable "match_runs")

def ofStore (s : Store) : Database :=
  ⟨currentVersion, some s.crates, some s.binaries, some s.sources, some s.functions, some s.runs⟩

theorem store_ofStore (s : Store) : (ofStore s).store = .ok s := rfl

end Database

end CrateTrace.Store
