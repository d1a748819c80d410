import CrateTrace.Name.Key

/-!
# Kinds of functions

What a function is, told from its declaration alone.
-/

namespace CrateTrace.Name

inductive FunctionKind where
  | normal (modulePath : String)
  | method (implType : String)
  | traitImpl (implType implTrait : String)
  | closure (parent : String)
deriving DecidableEq, Repr

def FunctionKind.label : FunctionKind → String
  | .normal _ => "normal"
  | .method _ => "method"
  | .traitImpl _ _ => "trait-impl"
  | .closure _ => "closure"

/-- The kind that an `impl` segment gives to the functions behind it. -/
def Segment.implKind? : Segment → Option FunctionKind
  | ⟨.traitImpl clause, _⟩ =>
    some (.traitImpl (plainPath clause.implementingType.path) (plainPath clause.implementedTrait))
  | ⟨.inherentImpl type, _⟩ => some (.method (plainPath type.path))
  | _ => none

def startsUppercase (name : String) : Bool := name.toList.head?.any Char.isUpper

/-- A closure wins over a trait clause, that over the innermost `impl` segment. Without these the
segment before the last decides: types are capitalised, modules are not. -/
def classify (d : Declaration) : FunctionKind :=
  if d.segments.any Segment.isClosure then
    .closure (plainPath (d.segments.takeWhile fun s => !s.isClosure))
  else
    match d.traitClause with
    | some clause =>
      .traitImpl (plainPath clause.implementingType.path) (plainPath clause.implementedTrait)
    | none =>
      match d.segments.reverse.findSome? Segment.implKind? with
      | some kind => kind
      | none =>
        let owner := Segment.plainNames d.segments.dropLast
        if owner.getLast?.any startsUppercase then .method (joinPath owner)
        else .normal (joinPath owner)

end CrateTrace.Name
