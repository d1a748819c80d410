import CrateTrace.Command.Arguments
import CrateTrace.Command.Links
import CrateTrace.Command.Names
import CrateTrace.Command.Project

/-!
# Running commands
-/

namespace CrateTrace.Command

open Workspace

def versionText : String := "0.1.0"

/-- What a command leaves: its exit code, what it prints, and why it failed. -/
structure Result where
  code : Nat
  output : String
  failure : Option (List String)
deriving DecidableEq, Repr

def Result.ofAction : Except Failure String → Result
  | .ok output => ⟨0, output, none⟩
  | .error (.error chain) => ⟨1, "", some chain⟩
  | .error .panic => ⟨101, "", none⟩

variable {m : Type → Type} [Monad m] [Host m]

/-- Without a command, the project in the current directory is described. -/
def action (g : Given) : ExceptT Failure m String :=
  let unit : Store.CrateVersion := ⟨g.value "crate" "", g.value "version" ""⟩
  match (g.form.map Form.verb).getD .projectInfo with
  | .initProject => initProject g.root (g.value? "name") (g.valuesOf "want-crate")
  | .projectInfo => projectInfo g.root g.json
  | .ingestSources => ingestSourceDumps g.root g.words (g.flag "force") g.json
  | .ingestBinaries => ingestBinaryDumps g.root g.words (g.flag "force") g.json
  | .extract => extract g.root (g.value "binary" "") (g.value? "name") (g.value? "output")
  | .attachSignatures => attachSignatures g.root unit (g.value "dump" "") g.json
  | .runMatch => runMatch g.root unit (g.valuesOf "candidate") g.json
  | .status => status g.root g.json
  | .listMatches => listMatches g.root (g.value? "crate") g.format
  | .listFunctions => listFunctions g.root (g.value "binary" "") (g.value? "status") g.format
  | .parseName => liftExcept (parseName (Host.demangler m) (g.words.headD "") g.json)
  | .signatures => signatures (g.value "binary" "") (g.value? "function") g.json

/-- Reads the arguments and does what they ask for. -/
def run (arguments : List String) : m Result := do
  match read arguments with
  | .error .version => return ⟨0, line s!"funcmatch {versionText}", none⟩
  | .error .misuse => return ⟨2, "", none⟩
  | .ok given => return .ofAction (← (action given : ExceptT Failure m String).run)

end CrateTrace.Command
