/-!
# Declarations

The tree that a demangled symbol name stands for. A name such as
`<algo::U32X4 as core::ops::MulAssign<u32>>::mul_assign` has the segment `mul_assign` behind a
trait clause. Equality of declarations is decidable.
-/

namespace CrateTrace.Name

/-- A lifetime argument, `'a` or `&'a`. -/
structure Lifetime where
  name : Char
  byRef : Bool
deriving DecidableEq, Repr

mutual

/-- One step of a path with its generic arguments, if any are written. -/
structure Segment where
  kind : SegmentKind
  generics : Option Generics

inductive SegmentKind where
  | name (text : String)
  /-- A closure body. The older mangling gives it no number. -/
  | closure (index : Option UInt32)
  /-- `<impl Type>` -/
  | inherentImpl (type : TypeRef)
  /-- `<impl Trait for Type>` -/
  | traitImpl (clause : TraitClause)

/-- A type named by its path, perhaps behind a shared reference. -/
structure TypeRef where
  byRef : Bool
  path : List Segment

/-- A trait and the type that implements it, however the two were written. -/
structure TraitClause where
  implementedTrait : List Segment
  implementingType : TypeRef

/-- Generic arguments. Types and lifetimes keep their order among their own kind only. -/
structure Generics where
  types : List TypeArgument
  lifetimes : List Lifetime

inductive TypeArgument where
  /-- A placeholder such as `T` or `&T1`. -/
  | param (name : String) (byRef : Bool)
  | concrete (type : TypeRef)

end

/-- The path of one symbol, behind a trait clause if the symbol starts with one. -/
structure Declaration where
  segments : List Segment
  traitClause : Option TraitClause

/-! ## Equality -/

mutual

def Segment.decEq : (a b : Segment) → Decidable (a = b)
  | ⟨k, g⟩, ⟨k', g'⟩ =>
    match SegmentKind.decEq k k', Generics.decEqOption g g' with
    | .isTrue hk, .isTrue hg => .isTrue (by rw [hk, hg])
    | .isFalse hk, _ => .isFalse (by rintro ⟨⟩; exact hk rfl)
    | _, .isFalse hg => .isFalse (by rintro ⟨⟩; exact hg rfl)

def SegmentKind.decEq : (a b : SegmentKind) → Decidable (a = b)
  | .name s, .name t => if h : s = t then .isTrue (by rw [h]) else .isFalse (by simpa using h)
  | .closure i, .closure j =>
    if h : i = j then .isTrue (by rw [h]) else .isFalse (by simpa using h)
  | .inherentImpl a, .inherentImpl b =>
    match TypeRef.decEq a b with
    | .isTrue h => .isTrue (by rw [h])
    | .isFalse h => .isFalse (by simpa using h)
  | .traitImpl a, .traitImpl b =>
    match TraitClause.decEq a b with
    | .isTrue h => .isTrue (by rw [h])
    | .isFalse h => .isFalse (by simpa using h)
  | .name _, .closure _ | .name _, .inherentImpl _ | .name _, .traitImpl _
  | .closure _, .name _ | .closure _, .inherentImpl _ | .closure _, .traitImpl _
  | .inherentImpl _, .name _ | .inherentImpl _, .closure _ | .inherentImpl _, .traitImpl _
  | .traitImpl _, .name _ | .traitImpl _, .closure _ | .traitImpl _, .inherentImpl _ =>
    .isFalse (by simp)

def TypeRef.decEq : (a b : TypeRef) → Decidable (a = b)
  | ⟨r, p⟩, ⟨r', p'⟩ =>
    match Segment.decEqList p p' with
    | .isTrue hp => if hr : r = r' then .isTrue (by rw [hr, hp]) else .isFalse (by simp [hr])
    | .isFalse hp => .isFalse (by simp [hp])

def TraitClause.decEq : (a b : TraitClause) → Decidable (a = b)
  | ⟨t, i⟩, ⟨t', i'⟩ =>
    match Segment.decEqList t t', TypeRef.decEq i i' with
    | .isTrue ht, .isTrue hi => .isTrue (by rw [ht, hi])
    | .isFalse ht, _ => .isFalse (by simp [ht])
    | _, .isFalse hi => .isFalse (by simp [hi])

def Generics.decEq : (a b : Generics) → Decidable (a = b)
  | ⟨t, l⟩, ⟨t', l'⟩ =>
    match TypeArgument.decEqList t t' with
    | .isTrue ht => if hl : l = l' then .isTrue (by rw [hl, ht]) else .isFalse (by simp [hl])
    | .isFalse ht => .isFalse (by simp [ht])

def TypeArgument.decEq : (a b : TypeArgument) → Decidable (a = b)
  | .param n r, .param n' r' =>
    if h : n = n' ∧ r = r' then .isTrue (by rw [h.1, h.2]) else .isFalse (by simpa using h)
  | .concrete a, .concrete b =>
    match TypeRef.decEq a b with
    | .isTrue h => .isTrue (by rw [h])
    | .isFalse h => .isFalse (by simpa using h)
  | .param _ _, .concrete _ | .concrete _, .param _ _ => .isFalse (by simp)

def Generics.decEqOption : (a b : Option Generics) → Decidable (a = b)
  | none, none => .isTrue rfl
  | some a, some b =>
    match Generics.decEq a b with
    | .isTrue h => .isTrue (by rw [h])
    | .isFalse h => .isFalse (by simpa using h)
  | none, some _ | some _, none => .isFalse (by simp)

def Segment.decEqList : (a b : List Segment) → Decidable (a = b)
  | [], [] => .isTrue rfl
  | a :: as, b :: bs =>
    match Segment.decEq a b, Segment.decEqList as bs with
    | .isTrue h, .isTrue hs => .isTrue (by rw [h, hs])
    | .isFalse h, _ => .isFalse (by simp [h])
    | _, .isFalse hs => .isFalse (by simp [hs])
  | [], _ :: _ | _ :: _, [] => .isFalse (by simp)

def TypeArgument.decEqList : (a b : List TypeArgument) → Decidable (a = b)
  | [], [] => .isTrue rfl
  | a :: as, b :: bs =>
    match TypeArgument.decEq a b, TypeArgument.decEqList as bs with
    | .isTrue h, .isTrue hs => .isTrue (by rw [h, hs])
    | .isFalse h, _ => .isFalse (by simp [h])
    | _, .isFalse hs => .isFalse (by simp [hs])
  | [], _ :: _ | _ :: _, [] => .isFalse (by simp)

end

instance : DecidableEq Segment := Segment.decEq
instance : DecidableEq TraitClause := TraitClause.decEq

deriving instance DecidableEq for Declaration

end CrateTrace.Name
