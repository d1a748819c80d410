/-!
# Errors of the store
-/

namespace CrateTrace.Store

/-- The schema that this library writes, and the oldest that it reads. -/
def currentVersion : Int := 2

def oldestVersion : Int := 0

inductive StoreError where
  /-- A code, in the column of this index, that stands for nothing. -/
  | outOfRange (index : Nat) (value : Int)
  /-- A column that holds no integer. -/
  | notInteger (found : String) (index : Nat) (column : String)
  | unknownRunStatus (index : Nat) (text : String)
  | foreignKey
  | nestedTransaction
  | missingTable (name : String)
  | cannotOpen (path : String)
  /-- The journal of a database cannot be made. -/
  | noJournal
  | notDatabase
  | unsupportedVersion (found : Int)
deriving DecidableEq, Repr

/-- What went wrong in the store; a version is no failure of the store. -/
def StoreError.cause? : StoreError → Option String
  | .outOfRange index value => some s!"Integer {value} out of range at index {index}"
  | .notInteger found index column =>
    some s!"Invalid column type {found} at index: {index}, name: {column}"
  | .unknownRunStatus index text =>
    some s!"Conversion error from type Text at index: {index}, unknown match run status `{text}`"
  | .foreignKey => some "FOREIGN KEY constraint failed"
  | .nestedTransaction => some "cannot start a transaction within a transaction"
  | .missingTable name => some s!"no such table: {name}"
  | .cannotOpen path => some s!"unable to open database file: {path}"
  | .noJournal => some "unable to open database file"
  | .notDatabase => some "file is not a database"
  | .unsupportedVersion _ => none

def StoreError.message (e : StoreError) : String :=
  match e with
  | .unsupportedVersion found =>
    s!"Unsupported schema version {found}; supported range is {oldestVersion}..={currentVersion}"
  | e => "SQLite error: " ++ e.cause?.getD ""

/-- The message and what lies behind it, outermost first. -/
def StoreError.chain (e : StoreError) : List String :=
  let code :=
    match e with
    | .cannotOpen _ | .noJournal => ["Error code 14: Unable to open the database file"]
    | .notDatabase => ["Error code 26: File opened that is not a database file"]
    | .missingTable _ => ["Error code 1: SQL error or missing database"]
    | _ => []
  e.message :: e.cause?.toList ++ code

end CrateTrace.Store
