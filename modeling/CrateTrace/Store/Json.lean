import CrateTrace.Json.Fields
import CrateTrace.Name.Json
import CrateTrace.Store.Record

/-!
# Records as JSON

A record that is stored shows its id beside its fields.
-/

namespace CrateTrace.Store

open Name

/-! ## Writing -/

def optionalText (text : Option String) : Json := Json.ofOption Json.str text

def wordJson (n : UInt64) : Json := .ofNat n.toNat

def Function.fields (f : Function) : List (String × Json) :=
  [("crate", .str f.crate), ("name", .str f.name), ("full_name", .str f.fullName),
    ("kind", f.kind.toJson), ("status", .str f.status.text)]

def SourceFunction.fields (f : SourceFunction) : List (String × Json) :=
  f.toFunction.fields ++
    [("version", .str f.version), ("signature", optionalText f.signature),
      ("matched", .bool f.matched)]

def BinaryFunction.fields (f : BinaryFunction) : List (String × Json) :=
  f.toFunction.fields ++
    [("binary", .str f.binary), ("address", wordJson f.address), ("signature", .str f.signature),
      ("matched_source", Json.ofOption Json.int f.matchedSource)]

def CrateVersion.fields (c : CrateVersion) : List (String × Json) :=
  [("name", .str c.name), ("version", .str c.version)]

def Binary.fields (b : Binary) : List (String × Json) :=
  [("name", .str b.name), ("hash", optionalText b.hash)]

/-- A row as the fields of its record behind its id. -/
def Row.toJson {α : Type} (fields : α → List (String × Json)) (r : Row α) : Json :=
  .obj (("id", .int r.id) :: fields r.value)

def Link.toJson (l : Link) : Json :=
  .obj [("binary", .str l.binary), ("address", wordJson l.address),
    ("binary_name", .str l.binaryName), ("crate", .str l.crate), ("version", .str l.version),
    ("source_name", .str l.sourceName)]

def Run.toJson (r : Run) : Json :=
  .obj [("crate", .str r.crate), ("version", .str r.version),
    ("linked_by_name", .ofNat r.linkedByName), ("linked_by_signature", .ofNat r.linkedBySignature),
    ("unmatched", .ofNat r.unmatched), ("failures", .ofNat r.failures),
    ("status", .str r.status.text), ("started_at", .str r.startedAt),
    ("finished_at", .str r.finishedAt)]

def Stats.toJson (s : Stats) : Json :=
  .obj [("crates", .ofNat s.crates), ("binaries", .ofNat s.binaries),
    ("source_functions", .ofNat s.sourceFunctions), ("binary_functions", .ofNat s.binaryFunctions),
    ("linked_binary_functions", .ofNat s.linkedBinaryFunctions),
    ("matched_source_functions", .ofNat s.matchedSourceFunctions)]

/-! ## Reading -/

def Status.ofJson? (j : Json) : Option Status := j.tag?.bind Status.ofText?

/-- A status in a record. There it may also be the only key of an object with an empty object. -/
def Status.ofRecord? (j : Json) : Option Status :=
  match j with
  | .obj [(name, .obj [] _)] _ => Status.ofText? name
  | j => Status.ofJson? j

def RunStatus.ofJson? (j : Json) : Option RunStatus := j.tag?.bind RunStatus.ofText?

def Function.ofFields? (f : Json.Fields) : Option Function := do
  return {
    crate := ← f.required "crate" Json.string?
    name := ← f.required "name" Json.string?
    fullName := ← f.required "full_name" Json.string?
    kind := ← f.required "kind" FunctionKind.ofJson?
    status := ← f.required "status" Status.ofRecord? }

def functionFields : List String := ["crate", "name", "full_name", "kind", "status"]

/-- A record of a function must be an object. -/
def SourceFunction.ofJson? (j : Json) : Option SourceFunction := do
  let f ← j.object? (functionFields ++ ["version", "signature", "matched"])
  return { ← Function.ofFields? f with
    version := ← f.required "version" Json.string?
    signature := ← f.optional "signature" Json.string?
    matched := ← f.required "matched" Json.bool? }

def BinaryFunction.ofJson? (j : Json) : Option BinaryFunction := do
  let f ← j.object? (functionFields ++ ["binary", "address", "signature", "matched_source"])
  return { ← Function.ofFields? f with
    binary := ← f.required "binary" Json.string?
    address := ← f.required "address" Json.word?
    signature := ← f.required "signature" Json.string?
    matchedSource := ← f.optional "matched_source" Json.int64? }

def Run.ofJson? (j : Json) : Option Run := do
  let f ← j.record? ["crate", "version", "linked_by_name", "linked_by_signature", "unmatched",
    "failures", "status", "started_at", "finished_at"]
  return {
    crate := ← f.required "crate" Json.string?
    version := ← f.required "version" Json.string?
    linkedByName := ← f.required "linked_by_name" (Json.natBelow? UInt64.size)
    linkedBySignature := ← f.required "linked_by_signature" (Json.natBelow? UInt64.size)
    unmatched := ← f.required "unmatched" (Json.natBelow? UInt64.size)
    failures := ← f.required "failures" (Json.natBelow? UInt64.size)
    status := ← f.required "status" RunStatus.ofJson?
    startedAt := ← f.required "started_at" Json.string?
    finishedAt := ← f.required "finished_at" Json.string? }

end CrateTrace.Store
