import CrateTrace.Command.Format
import CrateTrace.Store.Query
import CrateTrace.Workspace.Project

/-!
# Commands about projects

Making a project, and saying what is in it.
-/

namespace CrateTrace.Command

open Correlation Project Store Workspace

variable {m : Type → Type} [Monad m] [Host m]

/-! ## A new project -/

def makeAll : List String → ExceptT Failure m Unit
  | [] => return ()
  | directory :: rest => do
    let made ← Host.makeDirectories (m := m) directory
    orFail s!"Failed to create directory: {directory}" made
    makeAll rest

/-- Makes the directories, the settings and the database of a project. -/
def initProject (root : String) (name : Option String) (wantedCrates : List String) :
    ExceptT Failure m String := do
  let layout : Layout := ⟨← rootOf (m := m) root⟩
  let name := name.getD layout.suggestedName
  makeAll [layout.metaDirectory, layout.sourceDumps, layout.binaryDumps, layout.reports]
  let config := { Config.start name Layout.relativeDatabase with wantedCrates }
  writeConfig layout config
  let opened ← openStore (m := m) layout.database
  let _ ← orFailStore s!"Failed to initialize project database at {layout.database}" opened
  return lines [
    "Initialized funcmatch project:",
    s!"  Name: {name}",
    s!"  Root: {layout.root}",
    s!"  Config: {layout.configFile}",
    s!"  DB path (relative): {config.database}",
    s!"  MIR dumps dir: {layout.sourceDumps}",
    s!"  Binary dumps dir: {layout.binaryDumps}",
    s!"  Reports dir: {layout.reports}"]

/-! ## Settings and sizes -/

def infoJson (c : Context) : Json :=
  let layout := c.layout
  .obj [("name", .str c.config.name), ("root", .str layout.root),
    ("config_file", .str layout.configFile), ("config_version", .str c.config.version),
    ("db_path", .str c.config.database),
    ("wanted_crates", Json.ofList Json.str c.config.wantedCrates),
    ("matching", policyJson c.config.policy),
    ("layout", .obj [("meta_dir", .str layout.metaDirectory),
      ("mir_dumps_dir", .str layout.sourceDumps), ("bin_dumps_dir", .str layout.binaryDumps),
      ("reports_dir", .str layout.reports)]),
    ("stats", c.store.stats.toJson)]

def tieBreakName : TieBreak → String
  | .leaveUnmatched => "LeaveUnmatched"
  | .lexicographicallySmallest => "LexicographicallySmallest"

/-- Whether a directory is there. -/
def directoryLine (label path : String) : m String := do
  let state := if ← isDirectory path then "OK" else "MISSING"
  return s!"- {label}: {state} ({path})"

def infoText (c : Context) : m String := do
  let layout := c.layout
  let wanted :=
    if c.config.wantedCrates.isEmpty then "(all)" else ", ".intercalate c.config.wantedCrates
  let stats := c.store.stats
  let ratio := Decimal.plain c.config.policy.maxFailureRatio
  return lines [
    "funcmatch Project Info",
    "======================",
    s!"Name: {c.config.name}",
    s!"Root: {layout.root}",
    s!"Config file: {layout.configFile}",
    s!"Config version: {c.config.version}",
    s!"DB path (config): {c.config.database}",
    s!"Wanted crates: {wanted}",
    s!"Matching: max failure ratio {ratio}, tie break {tieBreakName c.config.policy.tieBreak}",
    "",
    "Directories:",
    ← directoryLine "Meta dir (.funcmatch)" layout.metaDirectory,
    ← directoryLine "MIR dumps dir" layout.sourceDumps,
    ← directoryLine "Binary dumps dir" layout.binaryDumps,
    ← directoryLine "Reports dir" layout.reports,
    "",
    "Database:",
    s!"- Crate versions: {stats.crates}",
    s!"- Binaries: {stats.binaries}",
    s!"- Source functions: {stats.sourceFunctions}",
    s!"- Binary functions: {stats.binaryFunctions}"]

def projectInfo (root : String) (json : Bool) : ExceptT Failure m String := do
  let context ← openProject (← rootOf (m := m) root)
  if json then return prettyLine (infoJson context) else infoText (m := m) context

/-! ## What was ingested and matched -/

def binaryLine (s : Store) (r : Row Binary) : String :=
  s!"{r.value.name} ({s.countFunctions r.id} functions)"

def statusJson (s : Store) (runs : List Run) : Json :=
  let crateJson (r : Row CrateVersion) : Json :=
    r.toJson fun c => c.fields ++ [("source_functions", .ofNat (s.countSources r.id))]
  .obj [("stats", s.stats.toJson), ("crates", Json.ofList crateJson s.listCrates),
    ("binaries", Json.ofList (fun r => Json.str (binaryLine s r)) s.listBinaries),
    ("match_runs", Json.ofList Run.toJson runs)]

def runLine (r : Run) : String :=
  s!"{r.crate} {r.version} [{r.status.text}] name={r.linkedByName} " ++
    s!"signature={r.linkedBySignature} unmatched={r.unmatched} failures={r.failures} " ++
    s!"at {r.finishedAt}"

/-- Indented lines, or a note that there are none. -/
def indented (texts : List String) : List String :=
  if texts.isEmpty then ["  (none)"] else texts.map ("  " ++ ·)

def statusText (s : Store) (runs : List Run) : String :=
  let crateLine (r : Row CrateVersion) : String :=
    s!"{r.value.name} {r.value.version} ({s.countSources r.id} functions)"
  let stats := s.stats
  lines <|
    ["Crates:"] ++ indented (s.listCrates.map crateLine) ++
    ["Binaries:"] ++ indented (s.listBinaries.map (binaryLine s)) ++
    [s!"Links: {stats.linkedBinaryFunctions} binary functions linked to " ++
      s!"{stats.matchedSourceFunctions} source functions"] ++
    ["Match runs:"] ++ indented (runs.map runLine)

def status (root : String) (json : Bool) : ExceptT Failure m String := do
  let context ← openProject (← rootOf (m := m) root)
  let s := context.store
  let runs ← orFailStore "Failed to list match runs" s.listRuns
  return if json then prettyLine (statusJson s runs) else statusText s runs

end CrateTrace.Command
