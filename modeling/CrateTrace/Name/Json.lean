import CrateTrace.Json.Fields
import CrateTrace.Name.Kind

/-!
# Declarations as JSON
-/

namespace CrateTrace.Name

/-! ## Writing -/

def Lifetime.toJson (l : Lifetime) : Json :=
  .obj [("name", .str (String.singleton l.name)), ("by_ref", .bool l.byRef)]

mutual

def Segment.toJson : Segment → Json
  | ⟨kind, generics⟩ => .obj [("kind", kind.toJson), ("generics", Generics.toJsonOption generics)]

def SegmentKind.toJson : SegmentKind → Json
  | .name text => .obj [("name", .str text)]
  | .closure index => .obj [("closure", Json.ofOption (fun i => .ofNat i.toNat) index)]
  | .inherentImpl type => .obj [("inherent_impl", type.toJson)]
  | .traitImpl clause => .obj [("trait_impl", clause.toJson)]

def TypeRef.toJson : TypeRef → Json
  | ⟨byRef, path⟩ =>
    .obj [("by_ref", .bool byRef), ("path", .obj [("tokens", .arr (Segment.toJsonList path))])]

def TraitClause.toJson : TraitClause → Json
  | ⟨implementedTrait, type⟩ =>
    .obj [("implemented_trait", .obj [("tokens", .arr (Segment.toJsonList implementedTrait))]),
      ("implementing_type", type.toJson)]

def Generics.toJson : Generics → Json
  | ⟨types, lifetimes⟩ =>
    .obj [("types", .arr (TypeArgument.toJsonList types)),
      ("lifetimes", Json.ofList Lifetime.toJson lifetimes)]

def TypeArgument.toJson : TypeArgument → Json
  | .param name byRef => .obj [("param", .obj [("name", .str name), ("by_ref", .bool byRef)])]
  | .concrete type => .obj [("concrete", type.toJson)]

def Generics.toJsonOption : Option Generics → Json
  | none => .null
  | some generics => generics.toJson

def Segment.toJsonList : List Segment → List Json
  | [] => []
  | segment :: path => segment.toJson :: Segment.toJsonList path

def TypeArgument.toJsonList : List TypeArgument → List Json
  | [] => []
  | type :: types => type.toJson :: TypeArgument.toJsonList types

end

def Declaration.toJson (d : Declaration) : Json :=
  .obj [("tokens", .arr (Segment.toJsonList d.segments)),
    ("trait_clause", Json.ofOption TraitClause.toJson d.traitClause)]

def StructuralKey.toJson (k : StructuralKey) : Json :=
  let names := Json.ofList Json.str
  .obj [("tokens", names k.segments),
    ("trait_clause", Json.ofOption (fun (t, i) => .arr [names t, names i]) k.traitClause)]

def FunctionKind.toJson : FunctionKind → Json
  | .normal modulePath => .obj [("kind", .str "normal"), ("module_path", .str modulePath)]
  | .method implType => .obj [("kind", .str "method"), ("impl_type", .str implType)]
  | .traitImpl implType implTrait =>
    .obj [("kind", .str "trait_impl"), ("impl_type", .str implType), ("impl_trait", .str implTrait)]
  | .closure parent => .obj [("kind", .str "closure"), ("parent", .str parent)]

/-! ## Reading

The functions call themselves on parts of the value, and stop at the given depth of nesting. -/

def Lifetime.ofJson? (j : Json) : Option Lifetime := do
  let f ← j.record? ["name", "by_ref"]
  return ⟨← f.required "name" Json.char?, ← f.required "by_ref" Json.bool?⟩

mutual

def Segment.ofJsonAt? (depth : Nat) (j : Json) : Option Segment :=
  match depth with
  | 0 => none
  | depth + 1 => do
    let f ← j.record? ["kind", "generics"]
    return ⟨← f.required "kind" (SegmentKind.ofJsonAt? depth),
      ← f.optional "generics" (Generics.ofJsonAt? depth)⟩

def SegmentKind.ofJsonAt? (depth : Nat) (j : Json) : Option SegmentKind :=
  match depth, j with
  | depth + 1, .obj [(key, j)] _ =>
    match key with
    | "name" => j.string?.map .name
    | "closure" => (j.nullable? (Json.natBelow? UInt32.size)).map (.closure <| ·.map UInt32.ofNat)
    | "inherent_impl" => (TypeRef.ofJsonAt? depth j).map .inherentImpl
    | "trait_impl" => (TraitClause.ofJsonAt? depth j).map .traitImpl
    | _ => none
  | _, _ => none

def Segment.pathOfJsonAt? (depth : Nat) (j : Json) : Option (List Segment) :=
  match depth with
  | 0 => none
  | depth + 1 => do
    let f ← j.record? ["tokens"]
    f.required "tokens" (Json.list? (Segment.ofJsonAt? depth))

def TypeRef.ofJsonAt? (depth : Nat) (j : Json) : Option TypeRef :=
  match depth with
  | 0 => none
  | depth + 1 => do
    let f ← j.record? ["by_ref", "path"]
    return ⟨← f.required "by_ref" Json.bool?, ← f.required "path" (Segment.pathOfJsonAt? depth)⟩

def TraitClause.ofJsonAt? (depth : Nat) (j : Json) : Option TraitClause :=
  match depth with
  | 0 => none
  | depth + 1 => do
    let f ← j.record? ["implemented_trait", "implementing_type"]
    return ⟨← f.required "implemented_trait" (Segment.pathOfJsonAt? depth),
      ← f.required "implementing_type" (TypeRef.ofJsonAt? depth)⟩

def Generics.ofJsonAt? (depth : Nat) (j : Json) : Option Generics :=
  match depth with
  | 0 => none
  | depth + 1 => do
    let f ← j.record? ["types", "lifetimes"]
    return ⟨← f.required "types" (Json.list? (TypeArgument.ofJsonAt? depth)),
      ← f.required "lifetimes" (Json.list? Lifetime.ofJson?)⟩

def TypeArgument.ofJsonAt? (depth : Nat) (j : Json) : Option TypeArgument :=
  match depth, j with
  | depth + 1, .obj [(key, j)] _ =>
    match key with
    | "param" => do
      let f ← j.object? ["name", "by_ref"]
      return .param (← f.required "name" Json.string?) (← f.required "by_ref" Json.bool?)
    | "concrete" => (TypeRef.ofJsonAt? depth j).map .concrete
    | _ => none
  | _, _ => none

end

def Declaration.ofJson? (j : Json) : Option Declaration := do
  let depth := j.soundDepth.1 + 1
  let f ← j.record? ["tokens", "trait_clause"]
  return ⟨← f.required "tokens" (Json.list? (Segment.ofJsonAt? depth)),
    ← f.optional "trait_clause" (TraitClause.ofJsonAt? depth)⟩

def StructuralKey.ofJson? (j : Json) : Option StructuralKey := do
  let names := Json.list? Json.string?
  let f ← j.record? ["tokens", "trait_clause"]
  let pair : Json → Option (List String × List String)
    | .arr [t, i] => return (← names t, ← names i)
    | _ => none
  return ⟨← f.required "tokens" names, ← f.optional "trait_clause" pair⟩

/-- The names of the kinds, in order. -/
def kindMarks : List String := ["normal", "method", "trait_impl", "closure"]

/-- The mark of a kind is its name or its place among the kinds. -/
def kindMark? : Json → Option String
  | .str mark => some mark
  | j => (j.natBelow? kindMarks.length).bind (kindMarks[·]?)

/-- A kind is marked by its field `kind`; as an array the mark comes first. -/
def FunctionKind.ofJson? (j : Json) : Option FunctionKind := do
  let (mark, rest) ← (match j with
    | .obj fields _ => do
      let f ← j.object? ["kind"]
      pure (← f.required "kind" kindMark?, .obj (fields.filter (·.1 != "kind")))
    | .arr (mark :: items) => do pure (← kindMark? mark, .arr items)
    | _ => none : Option (String × Json))
  match mark with
  | "normal" => do
    let f ← rest.record? ["module_path"]
    return .normal (← f.required "module_path" Json.string?)
  | "method" => do
    let f ← rest.record? ["impl_type"]
    return .method (← f.required "impl_type" Json.string?)
  | "trait_impl" => do
    let f ← rest.record? ["impl_type", "impl_trait"]
    return .traitImpl (← f.required "impl_type" Json.string?) (← f.required "impl_trait" Json.string?)
  | "closure" => do
    let f ← rest.record? ["parent"]
    return .closure (← f.required "parent" Json.string?)
  | _ => none

end CrateTrace.Name
