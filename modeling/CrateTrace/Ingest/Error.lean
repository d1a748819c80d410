import CrateTrace.FileError
import CrateTrace.Store.Error

/-!
# Errors and outcomes of ingestion
-/

namespace CrateTrace.Ingest

open Store

inductive IngestError where
  | unreadable (path : String) (reason : FileError)
  | malformed (path : String)
  | fileName (path : String)
  | store (reason : StoreError)
deriving DecidableEq, Repr

def IngestError.message : IngestError → String
  | .unreadable path reason => s!"failed to read {path}: {reason.message}"
  | .malformed path => s!"failed to parse dump {path}"
  | .fileName path => s!"cannot derive crate and version from file name {path}"
  | .store reason => reason.message

/-- The message and what lies behind it, outermost first. -/
def IngestError.chain (e : IngestError) : List String :=
  match e with
  | .unreadable _ reason => [e.message, reason.message]
  | .store reason => reason.chain
  | e => [e.message]

/-- What became of a dump. -/
inductive Outcome where
  | ingested (functions skipped : Nat)
  /-- The crate version or binary was there, and nothing has changed. -/
  | alreadyPresent
deriving DecidableEq, Repr

end CrateTrace.Ingest
