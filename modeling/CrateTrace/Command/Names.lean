import CrateTrace.Command.Dumps
import CrateTrace.Name.Json

/-!
# Commands about single names and files
-/

namespace CrateTrace.Command

open Name Workspace

/-! ## Names -/

def nameJson (input name : String) (d : Declaration) : Json :=
  .obj [("input", .str input), ("demangled", .str name), ("declaration", d.toJson),
    ("structural_key", (d.structuralKey d.crateName).toJson),
    ("crate", Json.ofOption Json.str d.crateName), ("kind", (classify d).toJson)]

def nameText (d : Declaration) : String :=
  let key := d.structuralKey d.crateName
  let clause :=
    match key.traitClause with
    | some (implementedTrait, type) =>
      [s!"Trait: {joinPath implementedTrait}", s!"Implementing type: {joinPath type}"]
    | none => []
  let crate := d.crateName.getD "(unknown)"
  let tokens := " :: ".intercalate key.segments
  lines <|
    [s!"Name: {d.display}", s!"Crate: {crate}", s!"Kind: {(classify d).label}",
      s!"Tokens: {tokens}"] ++ clause

/-- Shows the structure of a name. What cannot be demangled is taken as it is. -/
def parseName (demangler : Mangling.Demangler) (input : String) (json : Bool) :
    Except Failure String :=
  let name := (Mangling.demangle demangler input).toOption.getD input
  match parse name with
  | .error e => .error (.error [s!"Failed to parse name `{name}`", e.message])
  | .ok d => .ok (if json then prettyLine (nameJson input name d) else nameText d)

/-! ## Signatures -/

variable {m : Type → Type} [Monad m] [Host m]

/-- The signatures of the functions of a program file, of those only whose symbols contain a text if
it is given. -/
def signatures (binary : String) (filter : Option String) (json : Bool) :
    ExceptT Failure m String := do
  let program ← loadProgram (m := m) binary
  let chosen := program.functions.filter fun f =>
    filter.all fun text => (Text.splitAt? text.toList f.name.toList).isSome
  let row (f : Program.FunctionExtent) : String × String × String :=
    (Program.entryKey f.entry, f.name, (Signature.ofFunction program.view f).text)
  let rows := chosen.map row
  if json then
    return prettyLine <| Json.ofList (fun (entry, name, signature) =>
      .obj [("entry", .str entry), ("name", .str name), ("signature", .str signature)]) rows
  else
    return lines (rows.map fun (entry, name, signature) => s!"{entry} {signature} {name}")

end CrateTrace.Command
