import CrateTrace.Name.Kind
import CrateTrace.Proofs.Name.Skeleton

/-!
# The parent of a closure

A closure is named behind the item that it is part of, and its kind tells that item by a path. Main
statement: the path is a name again, of the same item up to its generic arguments, its references
and the trait clause that it may start with.
-/

namespace CrateTrace.Name

namespace Declaration

/-- What stands in front of the first closure: the item that the closure is part of. -/
def enclosing (d : Declaration) : Declaration :=
  { d with segments := d.segments.takeWhile fun s => !s.isClosure }

def withoutClause (d : Declaration) : Declaration := { d with traitClause := none }

/-- A closure that stands behind something. -/
structure IsInnerClosure (d : Declaration) : Prop where
  closure : d.segments.any Segment.isClosure = true
  inside : d.enclosing.segments ≠ []

theorem structuralKey_none (d : Declaration) :
    d.structuralKey none = ⟨Segment.plainNames d.segments, d.traitClause.map fun clause =>
      (Segment.plainNames clause.implementedTrait,
        Segment.plainNames clause.implementingType.path)⟩ := by
  simp [structuralKey]

theorem structurallyEq_iff_key {d d' : Declaration} :
    d.structurallyEq d' = true ↔ d.structuralKey none = d'.structuralKey none := by
  simp [structurallyEq]

/-- Without clauses only the paths matter. -/
theorem structurallyEq_withoutClause {d d' : Declaration} :
    d.withoutClause.structurallyEq d'.withoutClause = true ↔
      Segment.plainNames d.segments = Segment.plainNames d'.segments := by
  rw [structurallyEq_iff_key, structuralKey_none, structuralKey_none]
  simp [withoutClause]

theorem classify_inner {d : Declaration} (h : d.IsInnerClosure) :
    classify d = .closure (plainPath d.enclosing.segments) := by
  rw [classify, if_pos h.closure]
  rfl

theorem WellFormed.enclosing {d : Declaration} (h : d.WellFormed) :
    WellFormedPath d.enclosing.segments := by
  have hall : WellFormedPath d.segments := (forall_nested.mp h.nested).1
  rw [← List.takeWhile_append_dropWhile (p := fun s => !s.isClosure) (l := d.segments),
    wellFormedPath_append] at hall
  exact hall.1

end Declaration

/-! ## Plain names of skeletons -/

mutual

theorem Segment.plainName_skeleton (s : Segment) : s.skeleton.plainName = s.plainName := by
  cases s with
  | mk kind args => exact kind.plainName_skeleton

theorem SegmentKind.plainName_skeleton (kind : SegmentKind) :
    kind.skeleton.plainName = kind.plainName := by
  cases kind with
  | name text => rfl
  | closure index => rfl
  | inherentImpl type =>
    obtain ⟨byRef, path⟩ := type
    simp only [SegmentKind.skeleton, TypeRef.skeleton, SegmentKind.plainName,
      Segment.plainNames_skeletonPath path]
  | traitImpl clause =>
    obtain ⟨implementedTrait, byRef, path⟩ := clause
    simp only [SegmentKind.skeleton, TraitClause.skeleton, TypeRef.skeleton, SegmentKind.plainName,
      Segment.plainNames_skeletonPath implementedTrait, Segment.plainNames_skeletonPath path]

theorem Segment.plainNames_skeletonPath (path : List Segment) :
    Segment.plainNames (Segment.skeletonPath path) = Segment.plainNames path := by
  cases path with
  | nil => rfl
  | cons first path =>
    rw [Segment.skeletonPath, Segment.plainNames, Segment.plainNames, first.plainName_skeleton,
      Segment.plainNames_skeletonPath path]

end

/-! ## Parents -/

/-- The parent of a closure is the path of the item around it, and that item if it starts with no
trait clause. Closures have one parent just if the items around them have one path. -/
theorem closure_parent {name : String} {d : Declaration} (hparse : parse name = .ok d)
    (hinner : d.IsInnerClosure) :
    (∃ parent item, classify d = .closure parent ∧ parse parent = .ok item ∧
        item.structurallyEq d.enclosing.withoutClause = true ∧
        (item.structurallyEq d.enclosing = true ↔ d.traitClause = none)) ∧
      ∀ name' d', parse name' = .ok d' → d'.IsInnerClosure →
        (classify d' = classify d ↔
          d'.enclosing.withoutClause.structurallyEq d.enclosing.withoutClause = true) := by
  have hpath := (wellFormed_of_parse hparse).enclosing
  constructor
  · refine ⟨plainPath d.enclosing.segments, ⟨Segment.skeletonPath d.enclosing.segments, none⟩,
      Declaration.classify_inner hinner, parse_plainPath hinner.inside hpath, ?_, ?_⟩
    · rw [Declaration.structurallyEq_iff_key, Declaration.structuralKey_none,
        Declaration.structuralKey_none, Segment.plainNames_skeletonPath]
      rfl
    · rw [Declaration.structurallyEq_iff_key, Declaration.structuralKey_none,
        Declaration.structuralKey_none, Segment.plainNames_skeletonPath]
      cases hclause : d.traitClause <;> simp [Declaration.enclosing, hclause]
  · intro name' d' hparse' hinner'
    have hpath' := (wellFormed_of_parse hparse').enclosing
    rw [Declaration.classify_inner hinner, Declaration.classify_inner hinner',
      FunctionKind.closure.injEq, plainPath_eq_iff hinner'.inside hinner.inside hpath' hpath,
      ← plainNames_eq_iff hpath' hpath, Declaration.structurallyEq_withoutClause]

/-- `net::<impl &net::Conn<u8>>::run::{{closure}}::{closure#1}` -/
def runClosure : Declaration :=
  let u8 : TypeRef := ⟨false, [⟨.name "u8", none⟩]⟩
  let conn : TypeRef := ⟨true, [⟨.name "net", none⟩, ⟨.name "Conn", some ⟨[.concrete u8], []⟩⟩]⟩
  ⟨[⟨.name "net", none⟩, ⟨.inherentImpl conn, none⟩, ⟨.name "run", none⟩, ⟨.closure none, none⟩,
    ⟨.closure (some 1), none⟩], none⟩

theorem closure_parent_runClosure :
    parse "net::<impl &net::Conn<u8>>::run::\x7b\x7bclosure\x7d\x7d::\x7bclosure#1\x7d" =
        .ok runClosure ∧
      classify runClosure = .closure "net::<impl net::Conn>::run" ∧
      ∃ item, parse "net::<impl net::Conn>::run" = .ok item ∧
        item.structurallyEq runClosure.enclosing = true := by
  have hparse : parse
      "net::<impl &net::Conn<u8>>::run::\x7b\x7bclosure\x7d\x7d::\x7bclosure#1\x7d" =
        .ok runClosure := by decide +kernel
  have hkind : classify runClosure = .closure "net::<impl net::Conn>::run" := by decide +kernel
  obtain ⟨⟨parent, item, hparent, hitem, -, hequal⟩, -⟩ :=
    closure_parent hparse ⟨by decide +kernel, by decide +kernel⟩
  obtain rfl := FunctionKind.closure.inj (hkind.symm.trans hparent)
  exact ⟨hparse, hkind, item, hitem, hequal.mpr rfl⟩

/-- `<a::T as b::U>::f::{{closure}}` -/
def clauseClosure : Declaration :=
  ⟨[⟨.name "f", none⟩, ⟨.closure none, none⟩],
    some ⟨[⟨.name "b", none⟩, ⟨.name "U", none⟩], ⟨false, [⟨.name "a", none⟩, ⟨.name "T", none⟩]⟩⟩⟩

/-- A closure in a method of a trait has the bare method as its parent. -/
theorem closure_parent_clause :
    ¬ ∀ (name : String) (d : Declaration), parse name = .ok d → d.IsInnerClosure →
      ∃ parent item, classify d = .closure parent ∧ parse parent = .ok item ∧
        item.structurallyEq d.enclosing = true := by
  intro hall
  have hparse : parse "<a::T as b::U>::f::\x7b\x7bclosure\x7d\x7d" = .ok clauseClosure := by
    decide +kernel
  have hkind : classify clauseClosure = .closure "f" := by decide +kernel
  have hbare : parse "f" = .ok ⟨[⟨.name "f", none⟩], none⟩ := by decide +kernel
  obtain ⟨parent, item, hparent, hitem, hequal⟩ :=
    hall _ _ hparse ⟨by decide +kernel, by decide +kernel⟩
  obtain rfl := FunctionKind.closure.inj (hkind.symm.trans hparent)
  obtain rfl := Except.ok.inj (hbare.symm.trans hitem)
  revert hequal
  decide +kernel

end CrateTrace.Name
