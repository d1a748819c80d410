import CrateTrace.Ingest.Binary

/-!
# Reference signatures

The dump of a reference build gives source functions their signatures. A signature goes to the only
source function with the key of the dumped function.
-/

namespace CrateTrace.Ingest

open Mangling Name Program Store

/-- How many signatures were attached, and for how many dumped functions there was no source
function or more than one. -/
structure AttachSummary where
  attached : Nat
  unresolved : Nat
deriving DecidableEq, Repr

/-- The keys of source functions, with their ids. Names that cannot be parsed have none. -/
def sourceKeys (crate : String) (sources : List (Row SourceFunction)) :
    List (StructuralKey × RowId) :=
  sources.filterMap fun r =>
    match structuralKeyOf r.value.fullName crate with
    | .ok key => some (key, r.id)
    | .error _ => none

/-- The key of a dumped function of the crate, if it has a signature to give. -/
def referenceKey? (demangler : Demangler) (crate : String) (entry : FunctionDump) :
    Option StructuralKey :=
  if !entry.isRust || !Signature.Pattern.isValid entry.signature then none
  else
    match demangle demangler entry.name with
    | .error _ => none
    | .ok fullName =>
      match parse fullName with
      | .error _ => none
      | .ok d => if d.crateName = some crate then some (d.structuralKey (some crate)) else none

/-- Signatures to attach: the source functions found so far with the signatures that they get, and
how many dumped functions found none. -/
structure Attachment where
  signatures : List (RowId × String)
  unresolved : Nat

/-- Looks for the source function of one dumped function. The first signature for a source function
stays. -/
def Attachment.add (demangler : Demangler) (crate : String) (keys : List (StructuralKey × RowId))
    (a : Attachment) (entry : FunctionDump) : Attachment :=
  match referenceKey? demangler crate entry with
  | none => a
  | some key =>
    match keys.filter (·.1 = key) with
    | [(_, id)] =>
      if a.signatures.any (·.1 == id) then a
      else { a with signatures := a.signatures ++ [(id, entry.signature)] }
    | _ => { a with unresolved := a.unresolved + 1 }

def attach (demangler : Demangler) (s : Store) (unit : CrateVersion) (dump : Dump) :
    Except StoreError (AttachSummary × Store) :=
  match s.sourceFunctions unit with
  | .error e => .error e
  | .ok sources =>
    let keys := sourceKeys unit.name sources
    let found := (dump.map (·.2)).foldl (Attachment.add demangler unit.name keys) ⟨[], 0⟩
    .ok (⟨found.signatures.length, found.unresolved⟩,
      found.signatures.foldl (fun s (id, signature) => s.setSignature id signature) s)

end CrateTrace.Ingest
