import CrateTrace.Bytes
import CrateTrace.FileError
import CrateTrace.Json.Printer
import CrateTrace.Json.Reader
import CrateTrace.Store.Database
import CrateTrace.Store.Json

/-!
# The form of database files

A database is written as JSON behind a mark: its version and its tables, row by row.
-/

namespace CrateTrace.Store

/-! ## Columns -/

def Cell.toJson : Cell → Json
  | .integer n => .int n
  | .real ⟨negative, none⟩ => .arr [.bool negative]
  | .real ⟨negative, some b⟩ => .arr [.bool negative, .ofNat b.significand, .int b.exponent]
  | .text t => .str t

def Cell.ofJson? : Json → Option Cell
  | .int n => some (.integer n)
  | .arr [.bool negative] => some (.real ⟨negative, none⟩)
  | .arr [.bool negative, significand, .int exponent] =>
    (significand.natBelow? UInt64.size).map fun n => .real ⟨negative, some ⟨n, exponent⟩⟩
  | .str t => some (.text t)
  | _ => none

def FunctionColumns.fields (c : FunctionColumns) : List (String × Json) :=
  [("crate", .str c.crate), ("name", .str c.name), ("full_name", .str c.fullName),
    ("kind", c.kind.toJson), ("path", optionalText c.path), ("impl_type", optionalText c.implType),
    ("impl_trait", optionalText c.implTrait), ("status", c.status.toJson)]

def FunctionColumns.ofFields? (f : Json.Fields) : Option FunctionColumns := do
  return {
    crate := ← f.required "crate" Json.string?
    name := ← f.required "name" Json.string?
    fullName := ← f.required "full_name" Json.string?
    kind := ← f.required "kind" Cell.ofJson?
    path := ← f.optional "path" Json.string?
    implType := ← f.optional "impl_type" Json.string?
    implTrait := ← f.optional "impl_trait" Json.string?
    status := ← f.required "status" Cell.ofJson? }

def SourceColumns.fields (c : SourceColumns) : List (String × Json) :=
  c.toFunctionColumns.fields ++
    [("crate_id", .int c.crateId), ("version", .str c.version),
      ("signature", optionalText c.signature), ("matched", .bool c.matched)]

def SourceColumns.ofFields? (f : Json.Fields) : Option SourceColumns := do
  return { ← FunctionColumns.ofFields? f with
    crateId := ← f.required "crate_id" Json.int64?
    version := ← f.required "version" Json.string?
    signature := ← f.optional "signature" Json.string?
    matched := ← f.required "matched" Json.bool? }

def BinaryColumns.fields (c : BinaryColumns) : List (String × Json) :=
  c.toFunctionColumns.fields ++
    [("binary_id", .int c.binaryId), ("binary", .str c.binary), ("address", wordJson c.address),
      ("signature", .str c.signature), ("matched_source", Json.ofOption Json.int c.matchedSource)]

def BinaryColumns.ofFields? (f : Json.Fields) : Option BinaryColumns := do
  return { ← FunctionColumns.ofFields? f with
    binaryId := ← f.required "binary_id" Json.int64?
    binary := ← f.required "binary" Json.string?
    address := ← f.required "address" Json.word?
    signature := ← f.required "signature" Json.string?
    matchedSource := ← f.optional "matched_source" Json.int64? }

def CrateVersion.ofFields? (f : Json.Fields) : Option CrateVersion := do
  return ⟨← f.required "name" Json.string?, ← f.required "version" Json.string?⟩

def Binary.ofFields? (f : Json.Fields) : Option Binary := do
  return ⟨← f.required "name" Json.string?, ← f.optional "hash" Json.string?⟩

def RunColumns.fields (r : RunColumns) : List (String × Json) :=
  [("crate", .str r.crate), ("version", .str r.version), ("linked_by_name", .ofNat r.linkedByName),
    ("linked_by_signature", .ofNat r.linkedBySignature), ("unmatched", .ofNat r.unmatched),
    ("failures", .ofNat r.failures), ("status", .str r.status), ("started_at", .str r.startedAt),
    ("finished_at", .str r.finishedAt)]

def RunColumns.ofFields? (f : Json.Fields) : Option RunColumns := do
  return {
    crate := ← f.required "crate" Json.string?
    version := ← f.required "version" Json.string?
    linkedByName := ← f.required "linked_by_name" (Json.natBelow? UInt64.size)
    linkedBySignature := ← f.required "linked_by_signature" (Json.natBelow? UInt64.size)
    unmatched := ← f.required "unmatched" (Json.natBelow? UInt64.size)
    failures := ← f.required "failures" (Json.natBelow? UInt64.size)
    status := ← f.required "status" Json.string?
    startedAt := ← f.required "started_at" Json.string?
    finishedAt := ← f.required "finished_at" Json.string? }

/-! ## Tables -/

def Table.toJson {α : Type} (fields : α → List (String × Json)) (t : Table α) : Json :=
  .obj [("last", .int t.last), ("rows", Json.ofList (Row.toJson fields) t.rows)]

def row? {α : Type} (value? : Json.Fields → Option α) (j : Json) : Option (Row α) := do
  let f ← j.object? ["id"]
  return ⟨← f.required "id" Json.int64?, ← value? f⟩

/-- A table whose rows are numbered in their order, up to the number given last. -/
def Table.ofJson? {α : Type} (value? : Json.Fields → Option α) (j : Json) : Option (Table α) := do
  let f ← j.object? ["last", "rows"]
  let last ← f.required "last" Json.int64?
  let rows ← f.required "rows" (Json.list? (row? value?))
  if h : (rows.Pairwise fun a b => a.id < b.id) ∧ ∀ r ∈ rows, r.id ≤ last then
    return ⟨rows, last, h.1, h.2⟩
  else none

/-! ## Files -/

namespace Database

def toJson (d : Database) : Json :=
  .obj [("schema_version", .int d.version),
    ("crates", Json.ofOption (Table.toJson CrateVersion.fields) d.crates),
    ("binaries", Json.ofOption (Table.toJson Binary.fields) d.binaries),
    ("source_functions", Json.ofOption (Table.toJson SourceColumns.fields) d.sources),
    ("binary_functions", Json.ofOption (Table.toJson BinaryColumns.fields) d.functions),
    ("match_runs", Json.ofOption (Table.toJson RunColumns.fields) d.runs)]

def ofJson? (j : Json) : Option Database := do
  let f ← j.object? ["schema_version", "crates", "binaries", "source_functions",
    "binary_functions", "match_runs"]
  return {
    version := ← f.required "schema_version" Json.int64?
    crates := ← f.optional "crates" (Table.ofJson? CrateVersion.ofFields?)
    binaries := ← f.optional "binaries" (Table.ofJson? Binary.ofFields?)
    sources := ← f.optional "source_functions" (Table.ofJson? SourceColumns.ofFields?)
    functions := ← f.optional "binary_functions" (Table.ofJson? BinaryColumns.ofFields?)
    runs := ← f.optional "match_runs" (Table.ofJson? RunColumns.ofFields?) }

/-- The first byte of a database file. No text starts with it, so that a database is not taken for
text. -/
def mark : UInt8 := 0xff

def toBytes (d : Database) : ByteArray := ⟨#[mark]⟩ ++ d.toJson.compact.toUTF8

/-- A file with no more than a byte is a database without a schema. -/
def ofBytes (bytes : ByteArray) : Except StoreError Database :=
  if bytes.size ≤ 1 then .ok (blank oldestVersion)
  else if Bytes.byteAt bytes 0 ≠ mark then .error .notDatabase
  else
    match ((textOf (bytes.extract 1 bytes.size)).toOption.bind Json.ofText?).bind ofJson? with
    | some d => .ok d
    | none => .error .notDatabase

end Database

end CrateTrace.Store
