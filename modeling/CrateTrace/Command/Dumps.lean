import CrateTrace.Command.Format
import CrateTrace.Ingest.Reference
import CrateTrace.Workspace.Project

/-!
# Commands about dumps

Taking dumps into the database, and making them.
-/

namespace CrateTrace.Command

open Ingest Project Store Workspace

variable {m : Type → Type} [Monad m] [Host m]

/-! ## Dump files -/

/-- The files of a directory that are dumps by their names. -/
def dumpsIn (directory : String) : m (List String) := do
  let names ← Host.names directory
  let dumps := (names.filter fun name => (Path.splitExtension name).2 == some "json").map
    (Path.join directory)
  dumps.filterM isFile

/-- The dump files that paths lead to. A directory leads to the dumps in it. -/
def dumpFiles : List String → ExceptT Failure m (List String)
  | [] => return []
  | path :: paths => do
    let found ←
      match ← Host.kind (m := m) path with
      | .ok .directory => dumpsIn (m := m) path
      | .ok .file => pure [path]
      | .error _ => throw (.error [s!"Dump path does not exist: {path}"])
    return found ++ (← dumpFiles paths)

/-- The paths that a command is given, or else the usual directory. -/
def dumpPaths (root usual : String) (paths : List String) : List String :=
  if paths.isEmpty then [usual] else paths.map (Path.join root)

/-! ## Ingestion -/

/-- What became of one dump file. -/
structure Report where
  path : String
  outcome : Ingest.Outcome

def Report.toJson (r : Report) : Json :=
  let fields :=
    match r.outcome with
    | .ingested functions skipped =>
      [("outcome", Json.str "ingested"), ("functions", .ofNat functions),
        ("skipped", .ofNat skipped)]
    | .alreadyPresent => [("outcome", .str "already-present")]
  .obj (("path", .str r.path) :: fields)

def Report.text (r : Report) : String :=
  match r.outcome with
  | .ingested functions skipped =>
    s!"Ingested {r.path}: {functions} functions ({skipped} skipped)"
  | .alreadyPresent => s!"Already present (use --force to re-ingest): {r.path}"

def reportsText (kind : String) (reports : List Report) (json : Bool) : String :=
  if json then prettyLine (Json.ofList Report.toJson reports)
  else if reports.isEmpty then line s!"No {kind} dumps found."
  else lines (reports.map Report.text)

/-- Ingests one file after the other. What was ingested before a failure stays. -/
def ingestFiles (kind : String)
    (ingest : Config → String → Except FileError ByteArray →
      Except IngestError (Store → Ingest.Outcome × Store)) (context : Context) :
    List String → ExceptT Failure m (List Report)
  | [] => return []
  | path :: paths => do
    let content ← Host.read (m := m) path
    match ingest context.config path content with
    | .error e => throw (.error (s!"Failed to ingest {kind} dump {path}" :: e.chain))
    | .ok act =>
      let (outcome, store) := act context.store
      let context ← context.save store
      return ⟨path, outcome⟩ :: (← ingestFiles kind ingest context paths)

def ingestSourceDumps (root : String) (paths : List String) (force json : Bool) :
    ExceptT Failure m String := do
  let context ← openProject (← rootOf (m := m) root)
  let files ← dumpFiles (dumpPaths context.layout.root context.layout.sourceDumps paths)
  let ingest (_ : Config) (path : String) (content : Except FileError ByteArray) :=
    (sourceDump path content).map fun (unit, entries) (s : Store) =>
      ingestSources s unit entries force
  return reportsText "MIR" (← ingestFiles "MIR" ingest context files) json

def ingestBinaryDumps (root : String) (paths : List String) (force json : Bool) :
    ExceptT Failure m String := do
  let context ← openProject (← rootOf (m := m) root)
  let files ← dumpFiles (dumpPaths context.layout.root context.layout.binaryDumps paths)
  let ingest (config : Config) (path : String) (content : Except FileError ByteArray) :=
    (binaryDump path content).map fun (binary, dump) (s : Store) =>
      ingestDump (Host.demangler m) s config.wants binary dump force
  return reportsText "binary" (← ingestFiles "binary" ingest context files) json

/-! ## Reference signatures -/

def attachSignatures (root : String) (unit : CrateVersion) (dump : String) (json : Bool) :
    ExceptT Failure m String := do
  let context ← openProject (← rootOf (m := m) root)
  let path := Path.join context.layout.root dump
  match readDump path (← Host.read (m := m) path) with
  | .error e => throw (.error e.chain)
  | .ok dump =>
    let doing := s!"Failed to attach signatures to {unit.name} {unit.version}"
    let (summary, store) ← orFailStore doing (attach (Host.demangler m) context.store unit dump)
    let _ ← context.save store
    if json then
      return prettyLine (.obj [("attached", .ofNat summary.attached),
        ("unresolved", .ofNat summary.unresolved)])
    else
      return line (s!"Attached {summary.attached} signatures to {unit.name} {unit.version} " ++
        s!"({summary.unresolved} unresolved)")

/-! ## Extraction -/

/-- Disassembles a program file. -/
def loadProgram (path : String) : ExceptT Failure m Program.Disassembly := do
  let doing := s!"Failed to load binary {path}"
  match ← Host.read (m := m) path with
  | .error reason =>
    throw (.error [doing, s!"failed to read {path}: {reason.message}", reason.message])
  | .ok bytes =>
    let disassembler ← Host.disassembler (m := m) path
    match Elf.disassemble (Host.objectReader m) disassembler bytes with
    | .error (.refused reason) => throw (.error [doing, reason.message])
    | .error .overflow => throw .panic
    | .ok program => return program

/-- Writes the dump of a program file. -/
def extract (root binary : String) (name output : Option String) : ExceptT Failure m String := do
  let layout : Layout := ⟨← rootOf (m := m) root⟩
  let path := Path.join layout.root binary
  let program ← loadProgram path
  let dump := Program.dump program.view
  let name := name.getD ((Path.fileStem? path).getD "binary")
  let out :=
    match output with
    | some output => Path.join layout.root output
    | none => layout.binaryDump name
  match Path.parent? out with
  | some parent =>
    let made ← Host.makeDirectories (m := m) parent
    orFail s!"Failed to create {parent}" made
  | none => pure ()
  let written ← Host.write (m := m) out dump.toJson.pretty.toUTF8
  orFail s!"Failed to write dump {out}" written
  let rust := dump.countP fun (_, f) => f.isRust
  return lines [s!"Extracted {path}:", s!"  Functions: {dump.length} ({rust} Rust)",
    s!"  Dump: {out}"]

end CrateTrace.Command
