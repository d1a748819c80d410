import CrateTrace.Command.Format
import CrateTrace.Matching.Transaction
import CrateTrace.Store.Query
import CrateTrace.Text.Hex
import CrateTrace.Workspace.Project

/-!
# Commands about links

Matching the functions of a crate, and listing functions and links.
-/

namespace CrateTrace.Command

open Matching Store Workspace

variable {m : Type → Type} [Monad m] [Host m]

/-! ## Matching -/

/-- The crate and the version in `crate@version`. -/
def crateVersion? (spec : String) : Option CrateVersion :=
  ((Text.splitFirst? "@" spec).filter fun (crate, version) => crate != "" && version != "").map
    fun (crate, version) => ⟨crate, version⟩

def crateVersionRefusal (spec : String) : String := s!"Expected `crate@version`, got `{spec}`"

def crateVersions : List String → Except Failure (List CrateVersion)
  | [] => .ok []
  | spec :: specs =>
    match crateVersion? spec with
    | none => .error (.error [crateVersionRefusal spec])
    | some unit => (crateVersions specs).map (unit :: ·)

def summaryJson (s : Summary) : Json :=
  .obj [("crate", .str s.unit.name), ("version", .str s.unit.version),
    ("considered", .ofNat s.considered), ("linked_by_name", .ofNat s.linkedByName),
    ("linked_by_signature", .ofNat s.linkedBySignature), ("unmatched", .ofNat s.unmatched),
    ("failures", .ofNat s.failures)]

def summaryText (s : Summary) : String :=
  lines [
    s!"Matched {s.unit.name} {s.unit.version}:",
    s!"  Considered: {s.considered}",
    s!"  Linked by name: {s.linkedByName}",
    s!"  Linked by signature: {s.linkedBySignature}",
    s!"  Unmatched: {s.unmatched}",
    s!"  Parse failures: {s.failures}"]

/-- Runs a matching pass. The note of a pass that was taken back is kept too. -/
def runMatch (root : String) (unit : CrateVersion) (candidates : List String) (json : Bool) :
    ExceptT Failure m String := do
  let context ← openProject (← rootOf (m := m) root)
  let extra ← crateVersions candidates
  let started ← Host.time (m := m)
  let finished ← Host.time (m := m)
  let (result, c) :=
    transact ⟨unit, extra⟩ context.config.policy ⟨started, finished⟩ ⟨context.store, none⟩
  let _ ← context.save c.store
  match result with
  | .error e => throw (.error (s!"Matching pass for {unit.name} {unit.version} failed" :: e.chain))
  | .ok summary => return if json then prettyLine (summaryJson summary) else summaryText summary

/-! ## Listings -/

/-- An address with at least eight digits. -/
def addressText (address : UInt64) : String := "0x" ++ Text.hexPadded 8 address.toNat

def linkLine (l : Link) : String :=
  s!"{l.binary} {addressText l.address} {l.binaryName} -> {l.crate}@{l.version} {l.sourceName}"

def listMatches (root : String) (crate : Option String) (format : OutputFormat) :
    ExceptT Failure m String := do
  let context ← openProject (← rootOf (m := m) root)
  let links := context.store.listMatches crate
  let text :=
    if links.isEmpty then line "No matches recorded." else lines (links.map linkLine)
  return structured format (Json.ofList Link.toJson links) text

def statusName : Status → String
  | .ok => "Ok"
  | .unknownFormat => "UnknownFormat"
  | .badBinary => "BadBinary"
  | .unwantedCrate => "UnwantedCrate"

def functionLine (f : BinaryFunction) : String :=
  s!"{addressText f.address} {f.signature} [{f.kind.label} {statusName f.status}] {f.fullName}" ++
    if f.matchedSource.isSome then " (linked)" else ""

/-- The status that an argument names, if there is one. -/
def statusFilter : Option String → Except Failure (Option Status)
  | none => .ok none
  | some text =>
    match Status.ofText? text with
    | some status => .ok (some status)
    | none =>
      .error <| .error
        [s!"Unknown status `{text}`; expected ok, unknown-format, bad-binary or unwanted-crate"]

def listFunctions (root binary : String) (status : Option String) (format : OutputFormat) :
    ExceptT Failure m String := do
  let context ← openProject (← rootOf (m := m) root)
  let status ← statusFilter status
  let functions ← orFailStore "Failed to list functions" (context.store.binaryFunctions binary status)
  let text :=
    if functions.isEmpty then line s!"No functions recorded for {binary}."
    else lines (functions.map fun r => functionLine r.value)
  return structured format (Json.ofList (Row.toJson BinaryFunction.fields) functions) text

end CrateTrace.Command
