import CrateTrace.Name.Lexer
import CrateTrace.Path
import CrateTrace.Text.Blank
import CrateTrace.Text.Hex

/-!
# Names in dumps

What the labels in dumps and the names of dump files tell about functions and crates.
-/

namespace CrateTrace.Ingest

/-- The crate and the version in the name of a dump file, `crate_version.json`. -/
def unitOfFileName? (path : String) : Option (String × String) :=
  ((Path.fileStem? path).bind (Text.splitLast? "_")).filter fun (crate, version) =>
    crate != "" && version != ""

/-- The path of the function that a label in a source dump is about. It stands between the first
opening brace and the closing brace at the end; labels without it are about something else. -/
def functionPath? (label : String) : Option String :=
  match label.toList.dropWhile (· != '\x7b') with
  | [] => none
  | _ :: inner =>
    if inner.getLast? = some '\x7d' then
      let path := Text.trim inner.dropLast
      if path.isEmpty then none else some (String.ofList path)
    else none

def isIdentifier (name : List Char) : Bool :=
  match name with
  | [] => false
  | c :: rest => Name.isWordStart c && rest.all Name.isWordPart

/-- The crate of a name that is no path: its first segment, behind opening brackets and references. -/
def leadingCrate? (name : String) : Option String :=
  match Text.splitAt? [':', ':'] (name.toList.dropWhile fun c => c == '<' || c == '&') with
  | some (head, _) => if isIdentifier head then some (String.ofList head) else none
  | none => none

/-! ## Addresses -/

/-- A key without the marks `0x` in front of it. -/
def withoutMarks : List Char → List Char
  | '0' :: 'x' :: digits => withoutMarks digits
  | digits => digits

/-- The address that a key of a dump stands for. Digits have either case, and a plus sign may stand
before them. -/
def addressOfKey? (key : String) : Option UInt64 :=
  let digits :=
    match withoutMarks key.toList with
    | '+' :: digits => digits
    | digits => digits
  if digits.isEmpty then none
  else
    match Text.hexNumber? (digits.map Char.toLower) with
    | some n => if n < UInt64.size then some (UInt64.ofNat n) else none
    | none => none

end CrateTrace.Ingest
