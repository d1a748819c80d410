import CrateTrace.Path

/-!
# Where a project keeps its files
-/

namespace CrateTrace.Project

/-- The paths of a project, from the path of its root. -/
structure Layout where
  root : String
deriving DecidableEq, Repr

namespace Layout

/-- Where the database is, seen from the root. -/
def relativeDatabase : String := ".funcmatch/project.db"

def metaDirectory (l : Layout) : String := Path.join l.root ".funcmatch"

def configFile (l : Layout) : String := Path.join l.metaDirectory "project.json"

def database (l : Layout) : String := Path.join l.metaDirectory "project.db"

def dumps (l : Layout) : String := Path.join l.root "dumps"

def sourceDumps (l : Layout) : String := Path.join l.dumps "mir"

def binaryDumps (l : Layout) : String := Path.join l.dumps "bin"

def reports (l : Layout) : String := Path.join l.root "reports"

/-- Where the dump of a binary is written. -/
def binaryDump (l : Layout) (binary : String) : String := Path.join l.binaryDumps (binary ++ ".json")

/-- The name that the root suggests for the project. -/
def suggestedName (l : Layout) : String := (Path.fileName? l.root).getD "unnamed-project"

end Layout

end CrateTrace.Project
