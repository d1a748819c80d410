import CrateTrace.Json.Fields
import CrateTrace.Json.Printer
import CrateTrace.Json.Reader
import CrateTrace.Matching

/-!
# Project settings
-/

namespace CrateTrace.Project

open Correlation Matching

structure Config where
  name : String
  description : Option String
  /-- The version of the settings' own form. -/
  version : String
  /-- Where the database is, absolute or seen from the project's root. -/
  database : String
  /-- The crates whose functions are matched; all of them if none is named. -/
  wantedCrates : List String
  policy : Policy

namespace Config

/-- The settings of a new project. -/
def start (name database : String) : Config :=
  ⟨name, none, "0.1.0", database, [], .standard⟩

def wants (c : Config) (crate : String) : Bool :=
  c.wantedCrates.isEmpty || c.wantedCrates.contains crate

end Config

/-! ## JSON -/

def policyJson (p : Policy) : Json :=
  .obj [("max_failure_ratio", .float p.maxFailureRatio), ("tie_break", .str p.tieBreak.text)]

/-- A wish for all crates is not written. -/
def Config.toJson (c : Config) : Json :=
  .obj <|
    [("name", .str c.name), ("description", Json.ofOption Json.str c.description),
      ("config_version", .str c.version), ("db", .obj [("path", .str c.database)])] ++
    (if c.wantedCrates.isEmpty then []
      else [("wanted_crates", Json.ofList Json.str c.wantedCrates)]) ++
    [("matching", policyJson c.policy)]

def tieBreak? (j : Json) : Option TieBreak := j.tag?.bind TieBreak.ofText?

def policy? (j : Json) : Option Policy := do
  let f ← j.record? ["max_failure_ratio", "tie_break"]
  return {
    maxFailureRatio := ← f.orElse "max_failure_ratio" Json.float? Policy.standard.maxFailureRatio
    tieBreak := ← f.orElse "tie_break" tieBreak? Policy.standard.tieBreak }

def databasePath? (j : Json) : Option String := do
  let f ← j.record? ["path"]
  f.required "path" Json.string?

namespace Config

def ofJson? (j : Json) : Option Config := do
  let f ← j.record? ["name", "description", "config_version", "db", "wanted_crates", "matching"]
  return {
    name := ← f.required "name" Json.string?
    description := ← f.optional "description" Json.string?
    version := ← f.required "config_version" Json.string?
    database := ← f.required "db" databasePath?
    wantedCrates := ← f.orElse "wanted_crates" (Json.list? Json.string?) []
    policy := ← f.orElse "matching" policy? Policy.standard }

def ofText? (text : String) : Option Config := (Json.ofText? text).bind ofJson?

def toText (c : Config) : String := c.toJson.pretty

end Config

end CrateTrace.Project
