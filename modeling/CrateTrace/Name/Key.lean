import CrateTrace.Name.Parser
import CrateTrace.Name.Printer

/-!
# Structural keys

The shape of a declaration without its generic arguments. Monomorphic copies of one generic
function share a key.
-/

namespace CrateTrace.Name

/-- The names of a path's segments, and of the trait and the type of the clause if there is one. -/
structure StructuralKey where
  segments : List String
  traitClause : Option (List String × List String)
deriving DecidableEq, Repr

def joinPath (names : List String) : String := "::".intercalate names

/-! ## Names without generic arguments -/

mutual

def Segment.plainName : Segment → String
  | ⟨kind, _⟩ => kind.plainName

def SegmentKind.plainName : SegmentKind → String
  | .name text => text
  | .closure index => (Lexeme.closure index).spelling
  | .inherentImpl ⟨_, path⟩ => "<impl " ++ joinPath (Segment.plainNames path) ++ ">"
  | .traitImpl ⟨implementedTrait, ⟨_, path⟩⟩ =>
    "<impl " ++ joinPath (Segment.plainNames implementedTrait) ++ " for " ++
      joinPath (Segment.plainNames path) ++ ">"

def Segment.plainNames : List Segment → List String
  | [] => []
  | segment :: path => segment.plainName :: Segment.plainNames path

end

/-- The plain names of a path, joined. -/
def plainPath (path : List Segment) : String := joinPath (Segment.plainNames path)

def Segment.name? : Segment → Option String
  | ⟨.name text, _⟩ => some text
  | _ => none

def Segment.isClosure : Segment → Bool
  | ⟨.closure _, _⟩ => true
  | _ => false

namespace Declaration

/-! ## Keys -/

/-- The key of a declaration, relative to a crate if one is given: then a path that starts with
the crate's name has the key of the path behind it. -/
def structuralKey (d : Declaration) (crate : Option String) : StructuralKey :=
  let leadsWithCrate := crate.isSome && d.segments.head?.bind Segment.name? = crate
  { segments := (Segment.plainNames d.segments).drop (if leadsWithCrate then 1 else 0)
    traitClause := d.traitClause.map fun clause =>
      (Segment.plainNames clause.implementedTrait,
        Segment.plainNames clause.implementingType.path) }

/-- Whether two declarations differ at most in generic arguments and references. -/
def structurallyEq (a b : Declaration) : Bool := a.structuralKey none = b.structuralKey none

/-- The plain name of the last segment; a bare trait clause is named by its text. -/
def symbolName (d : Declaration) : String :=
  match d.segments.getLast? with
  | some segment => segment.plainName
  | none => d.display

/-- The crate that most likely defines the symbol. A method of a trait belongs to the type's crate,
or to the trait's if the type has a single segment, as primitive types do. -/
def crateName (d : Declaration) : Option String :=
  let path :=
    match d.traitClause with
    | some clause =>
      if 1 < clause.implementingType.path.length then clause.implementingType.path
      else clause.implementedTrait
    | none => d.segments
  path.head?.bind Segment.name?

end Declaration

/-- The key of a name, relative to a crate. -/
def structuralKeyOf (fullName crate : String) : Except ParseError StructuralKey :=
  (parse fullName).map (·.structuralKey (some crate))

/-! ## Order -/

def StructuralKey.compare (a b : StructuralKey) : Ordering :=
  (List.compareLex Ord.compare a.segments b.segments).then <|
    match a.traitClause, b.traitClause with
    | none, none => .eq
    | none, some _ => .lt
    | some _, none => .gt
    | some (t, i), some (t', i') =>
      (List.compareLex Ord.compare t t').then (List.compareLex Ord.compare i i')

end CrateTrace.Name
