import CrateTrace.Elf.Listing
import CrateTrace.Elf.Reader
import CrateTrace.Mangling.Standard
import CrateTrace.Path
import CrateTrace.Workspace.Host

/-!
# Files in memory

A tree of files that commands can run on without a disk.
-/

namespace CrateTrace.Workspace

/-- A file with what a disassembler would find in it, or a directory. -/
inductive Entry where
  | file (bytes : ByteArray) (listing : Json)
  | directory

/-- Files and directories by the names that lead to them from the top. The top is always there. -/
structure Tree where
  current : List String
  entries : List (List String × Entry)
  clock : String

namespace Tree

def entry? (t : Tree) (place : List String) : Option Entry :=
  if place.isEmpty then some .directory else (t.entries.find? (·.1 == place)).map (·.2)

/-- The longest name and the longest path, in bytes. -/
def longestName : Nat := 255

def longestPath : Nat := 4095

/-- The place one step away from a directory. -/
def next (place : List String) (part : String) : Except FileError (List String) :=
  if part == "." then .ok place
  else if part == ".." then .ok place.dropLast
  else if longestName < part.utf8ByteSize then .error .nameTooLong
  else .ok (place ++ [part])

/-- The place to which the parts of a path lead. Every step starts from a directory. -/
def follow (t : Tree) (place : List String) : List String → Except FileError (List String)
  | [] => .ok place
  | part :: parts =>
    match t.entry? place with
    | none => .error .missing
    | some (.file _ _) => .error .notDirectory
    | some .directory =>
      match next place part with
      | .error e => .error e
      | .ok place => t.follow place parts

/-- Where a path starts. -/
def start (t : Tree) (path : String) : Except FileError (List String) :=
  if path.isEmpty then .error .missing
  else if longestPath < path.utf8ByteSize then .error .nameTooLong
  else .ok (if Path.isAbsolute path then [] else t.current)

/-- The place of a path. There may be nothing in the last directory under the last name. A slash at
the end asks for a directory. -/
def locate (t : Tree) (path : String) : Except FileError (List String) :=
  match t.start path with
  | .error e => .error e
  | .ok place => t.follow place (Path.parts path ++ if path.endsWith "/" then ["."] else [])

def lookup (t : Tree) (path : String) : Except FileError (List String × Entry) :=
  match t.locate path with
  | .error e => .error e
  | .ok place =>
    match t.entry? place with
    | none => .error .missing
    | some entry => .ok (place, entry)

def kind (t : Tree) (path : String) : Except FileError EntryKind :=
  match t.lookup path with
  | .ok (_, .file _ _) => .ok .file
  | .ok (_, .directory) => .ok .directory
  | .error e => .error e

def text (place : List String) : String := "/" ++ "/".intercalate place

def canonical? (t : Tree) (path : String) : Option String :=
  match t.lookup path with
  | .ok (place, _) => some (text place)
  | .error _ => none

/-- The names in a directory, in the order of their characters. -/
def names (t : Tree) (path : String) : List String :=
  match t.lookup path with
  | .ok (place, .directory) =>
    (t.entries.filterMap fun (other, _) =>
      if other.dropLast == place then other.getLast? else none).mergeSort (· ≤ ·)
  | _ => []

def read (t : Tree) (path : String) : Except FileError ByteArray :=
  match t.lookup path with
  | .error e => .error e
  | .ok (_, .directory) => .error .isDirectory
  | .ok (_, .file bytes _) => .ok bytes

def put (t : Tree) (place : List String) (entry : Entry) : Tree :=
  { t with entries := t.entries.filter (·.1 != place) ++ [(place, entry)] }

/-- The place of a file that is to be written. The directory above it is there, and a slash behind
its name is refused. -/
def placeOfFile (t : Tree) (path : String) : Except FileError (List String) :=
  let parts := Path.parts path
  match t.start path with
  | .error e => .error e
  | .ok place =>
    match t.follow place (parts.dropLast ++ ["."]) with
    | .error e => .error e
    | .ok above =>
      if path.endsWith "/" then .error .isDirectory else t.follow above parts.getLast?.toList

/-- Puts a file in a directory that is there. -/
def write (t : Tree) (path : String) (bytes : ByteArray) (listing : Json) :
    Except FileError Unit × Tree :=
  match t.placeOfFile path with
  | .error e => (.error e, t)
  | .ok place =>
    match t.entry? place with
    | some .directory => (.error .isDirectory, t)
    | _ => (.ok (), t.put place (.file bytes listing))

/-- Makes the directories that the parts of a path lead through, as far as it can. The whole path is
tried first, where a file in the way is not a directory; from the first missing part on the parts
are made one by one, and there a file in the way exists already. -/
def makeAlong (t : Tree) (isNew : Bool) (place : List String) :
    List String → Except FileError Unit × Tree
  | [] => (.ok (), t)
  | part :: parts =>
    match next place part with
    | .error e => (.error e, t)
    | .ok place =>
      match t.entry? place with
      | none => (t.put place .directory).makeAlong true place parts
      | some .directory => t.makeAlong isNew place parts
      | some (.file _ _) =>
        (.error (if isNew || parts.isEmpty then .exists else .notDirectory), t)

def makeDirectories (t : Tree) (path : String) : Except FileError Unit × Tree :=
  match t.start path with
  | .error e => (.error e, t)
  | .ok place => t.makeAlong false place (Path.parts path)

def listing (t : Tree) (path : String) : Json :=
  match t.lookup path with
  | .ok (_, .file _ listing) => listing
  | _ => .null

/-! ## Running commands -/

instance : Host (StateM Tree) where
  currentDirectory := return text (← get).current
  canonical? path := return (← get).canonical? path
  kind path := return (← get).kind path
  names path := return (← get).names path
  read path := return (← get).read path
  write path bytes := modifyGet fun t => t.write path bytes .null
  makeDirectories path := modifyGet fun t => t.makeDirectories path
  demangler := Mangling.standard
  objectReader := Elf.standardReader
  disassembler path := return Elf.listed ((← get).listing path)
  time := return (← get).clock

end Tree

end CrateTrace.Workspace
