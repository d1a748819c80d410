import CrateTrace.Project.Config
import CrateTrace.Project.Layout
import CrateTrace.Store.DatabaseFile
import CrateTrace.Workspace.Host

/-!
# Projects on disk

The settings of a project and its database.
-/

namespace CrateTrace.Workspace

open Project Store

variable {m : Type → Type} [Monad m] [Host m]

/-- The root that a command is given, as an absolute path. What is not there yet is looked for in the
directory in which the command was started. -/
def rootOf (root : String) : m String := do
  if root.startsWith "." && (Path.pieces root).isEmpty then Host.currentDirectory
  else
    match ← Host.canonical? root with
    | some path => return path
    | none => return Path.join (← Host.currentDirectory) root

/-! ## Settings -/

def readConfig (layout : Layout) : ExceptT Failure m Config := do
  let content ← Host.read (m := m) layout.configFile
  let text ← orFail s!"Failed to read project config at {layout.configFile}" (content.bind textOf)
  match Config.ofText? text with
  | some config => return config
  | none => throw (.error ["Failed to parse project config JSON"])

def writeConfig (layout : Layout) (config : Config) : ExceptT Failure m Unit := do
  let made ← Host.makeDirectories (m := m) layout.metaDirectory
  orFail s!"Failed to create meta dir: {layout.metaDirectory}" made
  let written ← Host.write (m := m) layout.configFile config.toText.toUTF8
  orFail s!"Failed to write project config: {layout.configFile}" written

/-! ## Databases -/

/-- The longest path of a database file, and the longest name that leaves room for the ending of its
journal. In bytes. -/
def longestDatabasePath : Nat := 504

def longestDatabaseName : Nat := 247

def placeText (names : List String) : String := "/" ++ "/".intercalate names

/-- Follows the path of a database from a place. `..` takes back the name before it, even one that is
not there, but no name may stand below a file. -/
def databasePlace (path : String) (place : List String) :
    List String → m (Except StoreError (List String))
  | [] =>
    return if longestDatabasePath < (placeText place).utf8ByteSize then .error (.cannotOpen path)
      else .ok place
  | "." :: parts => databasePlace path place parts
  | ".." :: parts => databasePlace path place.dropLast parts
  | part :: parts => do
    let place := place ++ [part]
    if longestDatabasePath + 7 < (placeText place).utf8ByteSize then
      return .error (.cannotOpen path)
    else
      match ← Host.kind (placeText place) with
      | .ok _ | .error .missing => databasePlace path place parts
      | .error _ => return .error (.cannotOpen path)

/-- The database in a file. -/
def databaseOf (path : String) (content : Except FileError ByteArray) :
    Except StoreError Database :=
  match content with
  | .error _ => .error (.cannotOpen path)
  | .ok bytes => Database.ofBytes bytes

/-- Makes a database file if it is missing. -/
def touch (place : String) : m (Except FileError Unit) := do
  match ← Host.kind place with
  | .error .missing => Host.write place ByteArray.empty
  | _ => return .ok ()

def writeStore (path : String) (place : List String) (s : Store) : m (Except StoreError Unit) := do
  if place.getLast?.any fun name => longestDatabaseName < name.utf8ByteSize then
    return .error .noJournal
  else
    match ← Host.write (placeText place) (Database.ofStore s).toBytes with
    | .ok () => return .ok ()
    | .error _ => return .error (.cannotOpen path)

/-- The place of a database and the store in it. It is brought to the current version, and made if it
is missing. -/
def openStore (path : String) : m (Except StoreError (List String × Store)) := do
  match ← databasePlace path [] (Path.parts path) with
  | .error e => return .error e
  | .ok place =>
    let content ← do
      match ← touch (placeText place) with
      | .error e => pure (.error e)
      | .ok () => Host.read (placeText place)
    match databaseOf path content >>= Database.migrate >>= Database.store with
    | .error e => return .error e
    | .ok s =>
      match ← writeStore path place s with
      | .error e => return .error e
      | .ok () => return .ok (place, s)

/-- A project with its database open. -/
structure Context where
  layout : Layout
  config : Config
  database : String
  /-- Where the database is. -/
  place : List String
  store : Store

def orFailStore {α : Type} (doing : String) (result : Except StoreError α) : ExceptT Failure m α :=
  match result with
  | .ok a => pure a
  | .error e => throw (.error (doing :: e.chain))

def openProject (root : String) : ExceptT Failure m Context := do
  let layout : Layout := ⟨root⟩
  let config ← readConfig layout
  let database := Path.join root config.database
  let opened ← openStore (m := m) database
  let (place, store) ← orFailStore s!"Failed to open project database at {database}" opened
  return ⟨layout, config, database, place, store⟩

/-- Keeps what a command has changed. -/
def Context.save (c : Context) (s : Store) : ExceptT Failure m Context := do
  let written ← writeStore (m := m) c.database c.place s
  orFailStore s!"Failed to open project database at {c.database}" written
  return { c with store := s }

end CrateTrace.Workspace
