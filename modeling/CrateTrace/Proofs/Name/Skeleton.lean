import CrateTrace.Name.Key
import CrateTrace.Proofs.Name.RoundTrip

/-!
# Structural equality

What is left of a declaration without generic arguments and references is its skeleton. The plain
name of a segment is the canonical text of its skeleton. As that text can be read back, a key
belongs to one skeleton only, however deep paths are nested in each other.
-/

namespace CrateTrace.Name

/-! ## Skeletons -/

mutual

/-- The segment without generic arguments and references, at every depth. -/
def Segment.skeleton : Segment → Segment
  | ⟨kind, _⟩ => ⟨kind.skeleton, none⟩

def SegmentKind.skeleton : SegmentKind → SegmentKind
  | .name text => .name text
  | .closure index => .closure index
  | .inherentImpl type => .inherentImpl type.skeleton
  | .traitImpl clause => .traitImpl clause.skeleton

def TypeRef.skeleton : TypeRef → TypeRef
  | ⟨_, path⟩ => ⟨false, Segment.skeletonPath path⟩

def TraitClause.skeleton : TraitClause → TraitClause
  | ⟨implementedTrait, type⟩ => ⟨Segment.skeletonPath implementedTrait, type.skeleton⟩

def Segment.skeletonPath : List Segment → List Segment
  | [] => []
  | first :: path => first.skeleton :: Segment.skeletonPath path

end

def Declaration.skeleton (d : Declaration) : Declaration :=
  ⟨Segment.skeletonPath d.segments, d.traitClause.map TraitClause.skeleton⟩

/-! ## Plain names are texts of skeletons -/

theorem spell_lexeme (l : Lexeme) (rest : List Piece) :
    spell (.lexeme l :: rest) = l.spelling ++ spell rest := by
  simp [spell, Piece.spelling]

theorem spell_blank (rest : List Piece) : spell (.blank :: rest) = " " ++ spell rest := by
  simp [spell, Piece.spelling]

theorem spell_implOpen (rest : List Piece) :
    spell (.lexeme .less :: .lexeme .implWord :: .blank :: rest) = "<impl " ++ spell rest := by
  rw [spell_lexeme, spell_lexeme, spell_blank, ← String.append_assoc, ← String.append_assoc]
  rfl

theorem spell_for (rest : List Piece) :
    spell (.blank :: .lexeme .forWord :: .blank :: rest) = " for " ++ spell rest := by
  rw [spell_blank, spell_lexeme, spell_blank, ← String.append_assoc, ← String.append_assoc]
  rfl

/-- The names behind the first one of a path, each with a `::`. -/
def joinMore (names : List String) : String := String.join (names.map ("::" ++ ·))

theorem joinPath_cons (name : String) (names : List String) :
    joinPath (name :: names) = name ++ joinMore names := by
  induction names generalizing name with
  | nil => simp [joinPath, joinMore]
  | cons next names ih =>
    have hnext : joinPath (name :: next :: names) = name ++ "::" ++ joinPath (next :: names) :=
      String.intercalate_cons_cons
    rw [hnext, ih]
    simp [joinMore, String.append_assoc]

theorem plainName_inherentImpl (type : TypeRef) :
    (SegmentKind.inherentImpl type).plainName = "<impl " ++ plainPath type.path ++ ">" := by
  cases type
  rfl

theorem plainName_traitImpl (implementedTrait : List Segment) (type : TypeRef) :
    (SegmentKind.traitImpl ⟨implementedTrait, type⟩).plainName =
      "<impl " ++ plainPath implementedTrait ++ " for " ++ plainPath type.path ++ ">" := by
  cases type
  rfl

mutual

theorem Segment.spell_skeleton (s : Segment) (rest : List Piece) :
    spell (s.skeleton.print rest) = s.plainName ++ spell rest := by
  cases s with
  | mk kind args => exact kind.spell_skeleton rest

theorem SegmentKind.spell_skeleton (kind : SegmentKind) (rest : List Piece) :
    spell (kind.skeleton.print rest) = kind.plainName ++ spell rest := by
  cases kind with
  | name text => exact spell_lexeme (.word text) rest
  | closure index => exact spell_lexeme (.closure index) rest
  | inherentImpl type =>
    rw [SegmentKind.skeleton, SegmentKind.print, spell_implOpen, type.spell_skeleton, spell_lexeme,
      plainName_inherentImpl]
    simp [Lexeme.spelling, String.append_assoc]
  | traitImpl clause =>
    obtain ⟨implementedTrait, type⟩ := clause
    rw [SegmentKind.skeleton, TraitClause.skeleton, SegmentKind.print, spell_implOpen,
      Segment.spell_skeletonPath, spell_for, type.spell_skeleton, spell_lexeme, plainName_traitImpl]
    simp [Lexeme.spelling, String.append_assoc]

theorem TypeRef.spell_skeleton (type : TypeRef) (rest : List Piece) :
    spell (type.skeleton.print rest) = plainPath type.path ++ spell rest := by
  cases type with
  | mk byRef path => exact Segment.spell_skeletonPath path rest

theorem Segment.spell_skeletonPath (path : List Segment) (rest : List Piece) :
    spell (Segment.printPath (Segment.skeletonPath path) rest) =
      plainPath path ++ spell rest := by
  cases path with
  | nil => simp [Segment.skeletonPath, Segment.printPath, plainPath, Segment.plainNames, joinPath]
  | cons first path =>
    rw [Segment.skeletonPath, Segment.printPath, first.spell_skeleton, Segment.spell_skeletonMore,
      plainPath, Segment.plainNames, joinPath_cons, String.append_assoc]

theorem Segment.spell_skeletonMore (path : List Segment) (rest : List Piece) :
    spell (Segment.printMore (Segment.skeletonPath path) rest) =
      joinMore (Segment.plainNames path) ++ spell rest := by
  cases path with
  | nil => simp [Segment.skeletonPath, Segment.printMore, Segment.plainNames, joinMore]
  | cons first path =>
    rw [Segment.skeletonPath, Segment.printMore, spell_lexeme, first.spell_skeleton,
      Segment.spell_skeletonMore, Segment.plainNames]
    simp [joinMore, Lexeme.spelling, String.append_assoc]

end

/-! ## Skeletons of well-formed segments -/

/-- Well-formed and without generic arguments. -/
def Segment.Bare (s : Segment) : Prop := s.WellFormed ∧ s.generics = none

theorem Segment.skeletonPath_ne_nil {path : List Segment} (h : path ≠ []) :
    Segment.skeletonPath path ≠ [] := by
  cases path with
  | nil => exact absurd rfl h
  | cons first path => simp [Segment.skeletonPath]

theorem TypeRef.skeleton_ne_nil {type : TypeRef} (h : type.path ≠ []) :
    type.skeleton.path ≠ [] := by
  cases type
  exact Segment.skeletonPath_ne_nil h

theorem TraitClause.WellFormed.skeleton {clause : TraitClause} (h : clause.WellFormed) :
    clause.skeleton.WellFormed := by
  cases clause
  exact ⟨Segment.skeletonPath_ne_nil h.1, TypeRef.skeleton_ne_nil h.2⟩

theorem SegmentKind.WellFormed.skeleton {kind : SegmentKind} (h : kind.WellFormed) :
    kind.skeleton.WellFormed := by
  cases kind with
  | name text => exact h
  | closure index => trivial
  | inherentImpl type => exact TypeRef.skeleton_ne_nil h
  | traitImpl clause => exact TraitClause.WellFormed.skeleton h

mutual

theorem Segment.bare_skeleton (s : Segment) (h : ∀ t ∈ s.nested, t.WellFormed) :
    ∀ t ∈ s.skeleton.nested, t.Bare := by
  cases s with
  | mk kind args =>
    simp only [Segment.nested, List.forall_mem_cons, List.forall_mem_append] at h
    obtain ⟨hsegment, hkind, _⟩ := h
    simp only [Segment.skeleton, Segment.nested, Generics.nestedOption, List.append_nil,
      List.forall_mem_cons]
    exact ⟨⟨⟨hsegment.kind.skeleton, by simp⟩, rfl⟩, kind.bare_skeleton hkind⟩

theorem SegmentKind.bare_skeleton (kind : SegmentKind) (h : ∀ t ∈ kind.nested, t.WellFormed) :
    ∀ t ∈ kind.skeleton.nested, t.Bare := by
  cases kind with
  | name text => simp [SegmentKind.skeleton, SegmentKind.nested]
  | closure index => simp [SegmentKind.skeleton, SegmentKind.nested]
  | inherentImpl type => exact type.bare_skeleton h
  | traitImpl clause =>
    obtain ⟨implementedTrait, type⟩ := clause
    simp only [SegmentKind.nested, List.forall_mem_append] at h
    simp only [SegmentKind.skeleton, TraitClause.skeleton, SegmentKind.nested,
      List.forall_mem_append]
    exact ⟨Segment.bare_skeletonPath implementedTrait h.1, type.bare_skeleton h.2⟩

theorem TypeRef.bare_skeleton (type : TypeRef) (h : ∀ t ∈ type.nested, t.WellFormed) :
    ∀ t ∈ type.skeleton.nested, t.Bare := by
  cases type with
  | mk byRef path => exact Segment.bare_skeletonPath path h

theorem Segment.bare_skeletonPath (path : List Segment)
    (h : ∀ t ∈ Segment.nestedPath path, t.WellFormed) :
    ∀ t ∈ Segment.nestedPath (Segment.skeletonPath path), t.Bare := by
  cases path with
  | nil => simp [Segment.skeletonPath, Segment.nestedPath]
  | cons first path =>
    simp only [Segment.nestedPath, List.forall_mem_append] at h
    simp only [Segment.skeletonPath, Segment.nestedPath, List.forall_mem_append]
    exact ⟨first.bare_skeleton h.1, Segment.bare_skeletonPath path h.2⟩

end

/-! ## Plain names tell skeletons apart -/

/-- A declaration of these segments alone has the plain path as its text. -/
theorem display_skeletonPath (path : List Segment) :
    Declaration.display ⟨Segment.skeletonPath path, none⟩ = plainPath path := by
  have htext := Segment.spell_skeletonPath path []
  simpa [Declaration.display, Declaration.print, spell] using htext

theorem parse_plainPath {path : List Segment} (hne : path ≠ []) (h : WellFormedPath path) :
    parse (plainPath path) = .ok ⟨Segment.skeletonPath path, none⟩ := by
  have hbare : ∀ t ∈ Declaration.nested ⟨Segment.skeletonPath path, none⟩, t.Bare := by
    simpa [Declaration.nested] using Segment.bare_skeletonPath path h
  have hnames : Declaration.GenericsAtNames ⟨Segment.skeletonPath path, none⟩ :=
    fun t ht hargs => absurd (hbare t ht).2 hargs
  rw [← display_skeletonPath]
  exact parse_display
    ⟨fun t ht => (hbare t ht).1, by simp, .inl (Segment.skeletonPath_ne_nil hne)⟩ hnames

theorem plainPath_eq_iff {path path' : List Segment} (hne : path ≠ []) (hne' : path' ≠ [])
    (h : WellFormedPath path) (h' : WellFormedPath path') :
    plainPath path = plainPath path' ↔ Segment.skeletonPath path = Segment.skeletonPath path' := by
  constructor
  · intro hpath
    -- Both skeletons are what is read from the same text, so brackets need not be counted.
    have hparse := parse_plainPath hne' h'
    rw [← hpath, parse_plainPath hne h] at hparse
    simpa using hparse
  · intro hskeleton
    rw [← display_skeletonPath, hskeleton, display_skeletonPath]

theorem plainPath_singleton (s : Segment) : plainPath [s] = s.plainName := by
  simp [plainPath, Segment.plainNames, joinPath]

theorem plainName_eq_iff {s t : Segment} (hs : ∀ u ∈ s.nested, u.WellFormed)
    (ht : ∀ u ∈ t.nested, u.WellFormed) : s.plainName = t.plainName ↔ s.skeleton = t.skeleton := by
  have hs' : WellFormedPath [s] := by simpa [WellFormedPath, Segment.nestedPath] using hs
  have ht' : WellFormedPath [t] := by simpa [WellFormedPath, Segment.nestedPath] using ht
  have hpaths := plainPath_eq_iff (List.cons_ne_nil s []) (List.cons_ne_nil t []) hs' ht'
  simpa [plainPath_singleton, Segment.skeletonPath] using hpaths

theorem plainNames_eq_iff {path path' : List Segment} (h : WellFormedPath path)
    (h' : WellFormedPath path') :
    Segment.plainNames path = Segment.plainNames path' ↔
      Segment.skeletonPath path = Segment.skeletonPath path' := by
  induction path generalizing path' with
  | nil => cases path' <;> simp [Segment.plainNames, Segment.skeletonPath]
  | cons first path ih =>
    cases path' with
    | nil => simp [Segment.plainNames, Segment.skeletonPath]
    | cons first' path' =>
      simp only [WellFormedPath, Segment.nestedPath, List.forall_mem_append] at h h'
      simp only [Segment.plainNames, Segment.skeletonPath, List.cons.injEq,
        plainName_eq_iff h.1 h'.1, ih h.2 h'.2]

/-! ## Structural equality -/

theorem clauseNames_eq_iff {clause clause' : TraitClause}
    (h : ∀ s ∈ clause.nested, s.WellFormed) (h' : ∀ s ∈ clause'.nested, s.WellFormed) :
    (Segment.plainNames clause.implementedTrait = Segment.plainNames clause'.implementedTrait ∧
      Segment.plainNames clause.implementingType.path =
        Segment.plainNames clause'.implementingType.path) ↔
      clause.skeleton = clause'.skeleton := by
  obtain ⟨implementedTrait, byRef, path⟩ := clause
  obtain ⟨implementedTrait', byRef', path'⟩ := clause'
  simp only [TraitClause.nested, List.forall_mem_append] at h h'
  rw [plainNames_eq_iff h.1 h'.1, plainNames_eq_iff h.2 h'.2]
  simp [TraitClause.skeleton, TypeRef.skeleton]

theorem structurallyEq_of_wellFormed {d d' : Declaration} (h : d.WellFormed)
    (h' : d'.WellFormed) : d.structurallyEq d' = true ↔ d.skeleton = d'.skeleton := by
  obtain ⟨hsegments, hclause⟩ := Declaration.forall_nested.mp h.nested
  obtain ⟨hsegments', hclause'⟩ := Declaration.forall_nested.mp h'.nested
  obtain ⟨segments, traitClause⟩ := d
  obtain ⟨segments', traitClause'⟩ := d'
  unfold Declaration.structurallyEq Declaration.structuralKey
  simp only [Option.isSome_none, Bool.false_and, Bool.false_eq_true, if_false, List.drop_zero,
    decide_eq_true_eq, StructuralKey.mk.injEq, Declaration.skeleton, Declaration.mk.injEq,
    plainNames_eq_iff hsegments hsegments']
  refine and_congr_right fun _ => ?_
  cases traitClause with
  | none => cases traitClause' <;> simp
  | some clause =>
    cases traitClause' with
    | none => simp
    | some clause' =>
      simpa using clauseNames_eq_iff (hclause clause rfl) (hclause' clause' rfl)

/-- Two names are structurally equal just if they stand for the same declaration once generic
arguments and references are left out at every depth. -/
theorem structurallyEq_iff_skeleton {name name' : String} {d d' : Declaration}
    (h : parse name = .ok d) (h' : parse name' = .ok d') :
    d.structurallyEq d' = true ↔ d.skeleton = d'.skeleton :=
  structurallyEq_of_wellFormed (wellFormed_of_parse h) (wellFormed_of_parse h')

/-- `<impl a::b for c>` -/
def implOf (implementedTrait type : List String) : Declaration :=
  let path (words : List String) : List Segment := words.map fun word => ⟨.name word, none⟩
  ⟨[⟨.traitImpl ⟨path implementedTrait, ⟨false, path type⟩⟩, none⟩], none⟩

/-- A reference makes no difference, but it does to which of two nested paths a segment belongs. -/
theorem structurallyEq_iff_skeleton_sample :
    (indexMethod true).structurallyEq (indexMethod false) = true ∧
      (indexMethod true).skeleton = (indexMethod false).skeleton ∧
      (implOf ["a", "b"] ["c"]).structurallyEq (implOf ["a"] ["b", "c"]) = false := by
  have hequal : (indexMethod true).structurallyEq (indexMethod false) = true := by decide +kernel
  have hlong : parse "<impl a::b for c>" = .ok (implOf ["a", "b"] ["c"]) := by decide +kernel
  have hshort : parse "<impl a for b::c>" = .ok (implOf ["a"] ["b", "c"]) := by decide +kernel
  refine ⟨hequal, ?_, ?_⟩
  · exact (structurallyEq_iff_skeleton (parse_indexMethod true) (parse_indexMethod false)).mp hequal
  · rw [Bool.eq_false_iff, ne_eq, structurallyEq_iff_skeleton hlong hshort]
    decide +kernel

end CrateTrace.Name
