import CrateTrace.Text.Split

/-!
# Paths

Paths as text. Names stand between slashes; `.` stands for the directory itself and `..` for the one
above. Nothing is resolved here.
-/

namespace CrateTrace.Path

def isAbsolute (path : String) : Bool := path.startsWith "/"

/-- A path relative to a directory. An absolute path stays as it is. -/
def join (directory path : String) : String :=
  if isAbsolute path then path
  else if directory.isEmpty || directory.endsWith "/" then directory ++ path
  else directory ++ "/" ++ path

/-- What stands between the slashes. -/
def parts (path : String) : List String :=
  (path.splitToList (· == '/')).filter (· != "")

/-- The parts that say something. -/
def pieces (path : String) : List String := (parts path).filter (· != ".")

/-- The last name of a path; a path that ends in `..` has none. -/
def fileName? (path : String) : Option String := (pieces path).getLast?.filter (· != "..")

/-- A name without its extension, and the extension. A dot in front starts no extension. -/
def splitExtension (name : String) : String × Option String :=
  match Text.splitLast? "." name with
  | some (stem, extension) => if stem.isEmpty then (name, none) else (stem, some extension)
  | none => (name, none)

def fileStem? (path : String) : Option String := (fileName? path).map fun n => (splitExtension n).1

/-- What stands between the slashes up to the last piece. -/
def upToPiece (parts : List String) : List String :=
  (parts.reverse.dropWhile fun part => part == "" || part == ".").reverse

/-- The path up to its last piece, as it is written; a path without pieces has none. -/
def parent? (path : String) : Option String :=
  let (root, relative) := if isAbsolute path then ("/", (path.drop 1).toString) else ("", path)
  match upToPiece (relative.splitToList (· == '/')) with
  | [] => none
  | parts => some (root ++ "/".intercalate (upToPiece parts.dropLast))

end CrateTrace.Path
