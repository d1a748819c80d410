import CrateTrace.Ingest.Error
import CrateTrace.Ingest.Label
import CrateTrace.Json.Fields
import CrateTrace.Json.Reader
import CrateTrace.Signature.Pattern
import CrateTrace.Store.Query

/-!
# Source dumps

A source dump lists what a crate version contains. Each entry is a list of a label, something that
is not used here, and a signature if there is one.
-/

namespace CrateTrace.Ingest

open Name Store

/-- An entry of a source dump. -/
abbrev Entry := List Json

def entryLabel? (entry : Entry) : Option String := entry.head?.bind Json.string?

/-- The signature of an entry, if it is a valid one. -/
def entrySignature? (entry : Entry) : Option String :=
  ((entry[2]?).bind Json.string?).filter Signature.Pattern.isValid

/-- The source function of an entry. Entries that are not about a function, or whose path cannot be
parsed, have none. -/
def sourceOf? (unit : CrateVersion) (entry : Entry) : Option SourceFunction :=
  match (entryLabel? entry).bind functionPath? with
  | none => none
  | some path =>
    match parse path with
    | .error _ => none
    | .ok d =>
      some {
        crate := unit.name
        name := d.symbolName
        fullName := path
        kind := classify d
        status := .ok
        version := unit.version
        signature := entrySignature? entry
        matched := false }

def sourcesOfEntries (unit : CrateVersion) (entries : List Entry) : List SourceFunction :=
  entries.filterMap (sourceOf? unit)

/-- Puts the functions of a dump into the store, in the order of the entries. -/
def fillCrate (s : Store) (crateId : RowId) (unit : CrateVersion) (entries : List Entry) :
    Outcome × Store :=
  let sources := sourcesOfEntries unit entries
  (.ingested sources.length (entries.length - sources.length),
    sources.foldl (·.addSource crateId) s)

/-- Ingests the dump of a crate version. One that is there is only replaced by force. -/
def ingestSources (s : Store) (unit : CrateVersion) (entries : List Entry) (force : Bool) :
    Outcome × Store :=
  let (row, created, s') := s.ensureCrate unit
  if created then fillCrate s' row.id unit entries
  else if force then fillCrate (s'.deleteSources row.id) row.id unit entries
  else (.alreadyPresent, s)

/-! ## Files -/

/-- How deep a dump may nest. -/
def maxDepth : Nat := 127

def entries? (text : String) : Option (List Entry) :=
  (Json.ofText? text).bind fun j =>
    if j.soundDepth = (j.soundDepth.1, true) ∧ j.soundDepth.1 ≤ maxDepth then
      j.list? (Json.list? some)
    else none

def readText (path : String) (content : Except FileError ByteArray) : Except IngestError String :=
  match content.bind textOf with
  | .error reason => .error (.unreadable path reason)
  | .ok text => .ok text

/-- The crate version that a dump file is about, and the entries in it. -/
def sourceDump (path : String) (content : Except FileError ByteArray) :
    Except IngestError (CrateVersion × List Entry) :=
  match unitOfFileName? path with
  | none => .error (.fileName path)
  | some (name, version) =>
    match readText path content with
    | .error e => .error e
    | .ok text =>
      match entries? text with
      | none => .error (.malformed path)
      | some entries => .ok (⟨name, version⟩, entries)

end CrateTrace.Ingest
