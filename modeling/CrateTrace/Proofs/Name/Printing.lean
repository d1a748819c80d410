import CrateTrace.Proofs.Name.WellFormed

/-!
# The canonical text is derived

The lexemes of a printed declaration stand for it, if generic arguments are at names only: behind
a closure or an `<impl …>` they are printed without the `::` that the grammar asks for.
-/

namespace CrateTrace.Name

def SegmentKind.isName : SegmentKind → Bool
  | .name _ => true
  | _ => false

def Segment.GenericsAtName (s : Segment) : Prop := s.generics ≠ none → s.kind.isName = true

/-- No closure and no `<impl …>` carries generic arguments. -/
def Declaration.GenericsAtNames (d : Declaration) : Prop := ∀ s ∈ d.nested, s.GenericsAtName

/-- What the grammar and the printer agree on. -/
def Segment.Printable (s : Segment) : Prop := s.WellFormed ∧ s.GenericsAtName

/-! ## Printed lexemes -/

/-- Printing puts these lexemes in front of those of the rest. -/
def IsText (print : List Piece → List Piece) (text : List Lexeme) : Prop :=
  ∀ rest, lexemes (print rest) = text ++ lexemes rest

theorem isText_ref (byRef : Bool) : IsText (printRef byRef) (refMark byRef) := by
  intro rest
  cases byRef <;> rfl

/-- More arguments may stand behind any first one. -/
def Extends (text : List Lexeme) (types : List TypeArgument) (lifetimes : List Lifetime) : Prop :=
  ∀ before between first, Derives (.argument before between) first →
    Derives (.arguments before ⟨between.types ++ types, between.lifetimes ++ lifetimes⟩)
      (first ++ text)

theorem extends_nil : Extends [] [] [] := by
  intro before between first hfirst
  cases between
  simpa using Derives.lastArgument hfirst

theorem extends_type {type : TypeArgument} {types : List TypeArgument} {lifetimes : List Lifetime}
    {text text' : List Lexeme}
    (htype : ∀ args : Generics, Derives (.argument args (args.addType type)) text)
    (htypes : Extends text' types lifetimes) :
    Extends (.comma :: text ++ text') (type :: types) lifetimes := by
  intro before between first hfirst
  simpa [Generics.addType] using Derives.moreArguments hfirst (htypes _ _ _ (htype between))

theorem extends_lifetime (lifetime : Lifetime) {types : List TypeArgument}
    {lifetimes : List Lifetime} {text : List Lexeme} (h : Extends text types lifetimes) :
    Extends (.comma :: (refMark lifetime.byRef ++ [.lifetime lifetime.name]) ++ text) types
      (lifetime :: lifetimes) := by
  intro before between first hfirst
  have hlifetime := Derives.lifetime between lifetime.byRef lifetime.name
  simpa [Generics.addLifetime] using Derives.moreArguments hfirst (h _ _ _ hlifetime)

theorem isText_lifetime (lifetime : Lifetime) :
    IsText lifetime.print (refMark lifetime.byRef ++ [.lifetime lifetime.name]) := by
  intro rest
  simp [Lifetime.print, isText_ref lifetime.byRef _, lexemes]

theorem print_lifetimes (lifetimes : List Lifetime) :
    ∃ text, IsText (Lifetime.printMore lifetimes) text ∧
      ∀ types text', Extends text' types [] → Extends (text ++ text') types lifetimes := by
  induction lifetimes with
  | nil => exact ⟨[], fun rest => rfl, fun types text' htypes => htypes⟩
  | cons lifetime lifetimes ih =>
    obtain ⟨text, htext, hextends⟩ := ih
    refine ⟨.comma :: (refMark lifetime.byRef ++ [.lifetime lifetime.name]) ++ text, ?_, ?_⟩
    · intro rest
      have hmore : Lifetime.printMore (lifetime :: lifetimes) rest =
        .lexeme .comma :: .blank :: lifetime.print (Lifetime.printMore lifetimes rest) := rfl
      simp [hmore, lexemes, isText_lifetime lifetime _, htext rest]
    · intro types text' htypes
      simpa using extends_lifetime lifetime (hextends types text' htypes)

/-! ## Printed trees -/

mutual

theorem Segment.print_derives (s : Segment) (h : ∀ t ∈ s.nested, t.Printable) :
    ∃ text, IsText s.print text ∧ ∀ before, Derives (.segment before (before ++ [s])) text := by
  cases s with
  | mk kind args =>
    simp only [Segment.nested, List.forall_mem_cons, List.forall_mem_append] at h
    obtain ⟨hsegment, hkind, hargs⟩ := h
    obtain ⟨text, htext, hderives⟩ := kind.print_derives hsegment.1.kind hkind
    cases args with
    | none => exact ⟨text, fun rest => by rw [Segment.print, htext]; rfl, hderives⟩
    | some args =>
      obtain ⟨text', htext', hderives'⟩ := args.print_derives (hsegment.1.generics args rfl) hargs
      -- Only behind a word may `<` stand without a `::`.
      have hname := hsegment.2 (by simp)
      cases kind with
      | name word =>
        refine ⟨.word word :: text', ?_, fun before => .genericName before word hderives'⟩
        intro rest
        simp [Segment.print, SegmentKind.print, Generics.printOption, lexemes, htext' rest]
      | closure index => cases hname
      | inherentImpl type => cases hname
      | traitImpl clause => cases hname

theorem SegmentKind.print_derives (kind : SegmentKind) (hkind : kind.WellFormed)
    (h : ∀ t ∈ kind.nested, t.Printable) :
    ∃ text, IsText kind.print text ∧
      ∀ before, Derives (.segment before (before ++ [⟨kind, none⟩])) text := by
  cases kind with
  | name word => exact ⟨[.word word], fun rest => rfl, fun before => .name before word⟩
  | closure index => exact ⟨[.closure index], fun rest => rfl, fun before => .closure before index⟩
  | inherentImpl type =>
    obtain ⟨text, htext, hderives⟩ := type.print_derives hkind h
    refine ⟨.less :: .implWord :: text ++ [.greater], ?_, fun before => .inherentImpl before hderives⟩
    intro rest
    simp [SegmentKind.print, lexemes, htext _]
  | traitImpl clause =>
    obtain ⟨implementedTrait, type⟩ := clause
    simp only [SegmentKind.nested, List.forall_mem_append] at h
    obtain ⟨text, htext, hderives⟩ := Segment.printPath_derives implementedTrait hkind.1 h.1
    obtain ⟨text', htext', hderives'⟩ := type.print_derives hkind.2 h.2
    refine ⟨.less :: .implWord :: text ++ .forWord :: text' ++ [.greater], ?_,
      fun before => .traitImpl before hderives hderives'⟩
    intro rest
    simp [SegmentKind.print, lexemes, htext _, htext' _]

theorem TypeRef.print_derives (type : TypeRef) (hpath : type.path ≠ [])
    (h : ∀ t ∈ type.nested, t.Printable) :
    ∃ text, IsText type.print text ∧ Derives (.type type) text := by
  cases type with
  | mk byRef path =>
    obtain ⟨text, htext, hderives⟩ := Segment.printPath_derives path hpath h
    refine ⟨refMark byRef ++ text, ?_, .type byRef hderives⟩
    intro rest
    simp [TypeRef.print, isText_ref byRef _, htext rest]

theorem Generics.print_derives (args : Generics) (hargs : args.WellFormed)
    (h : ∀ t ∈ args.nested, t.Printable) :
    ∃ text, IsText args.print text ∧ Derives (.generics args) text := by
  obtain ⟨types, lifetimes⟩ := args
  cases lifetimes with
  | nil =>
    cases types with
    | nil => simpa using hargs.nonempty
    | cons type types =>
      simp only [Generics.nested, TypeArgument.nestedList, List.forall_mem_append] at h
      obtain ⟨htype, htypes⟩ := List.forall_mem_cons.mp hargs.types
      obtain ⟨text, htext, hderives⟩ := type.print_derives htype h.1
      obtain ⟨text', htext', hextends⟩ := TypeArgument.printMore_derives types htypes h.2
      refine ⟨.less :: (text ++ text') ++ [.greater], ?_, ?_⟩
      · intro rest
        simp [Generics.print, TypeArgument.printList, lexemes, htext _, htext' _]
      · exact .generics (hextends _ _ _ (hderives ⟨[], []⟩))
  | cons lifetime lifetimes =>
    simp only [Generics.nested] at h
    obtain ⟨text, htext, hlifetimes⟩ := print_lifetimes lifetimes
    obtain ⟨text', htext', hextends⟩ := TypeArgument.printMore_derives types hargs.types h
    have hfirst := Derives.lifetime ⟨[], []⟩ lifetime.byRef lifetime.name
    refine ⟨.less :: (refMark lifetime.byRef ++ [.lifetime lifetime.name] ++ (text ++ text')) ++
      [.greater], ?_, ?_⟩
    · intro rest
      simp [Generics.print, lexemes, isText_lifetime lifetime _, htext _, htext' _]
    · exact .generics (hlifetimes types text' hextends _ _ _ hfirst)

theorem TypeArgument.print_derives (type : TypeArgument) (htype : type.WellFormed)
    (h : ∀ t ∈ type.nested, t.Printable) :
    ∃ text, IsText type.print text ∧
      ∀ args : Generics, Derives (.argument args (args.addType type)) text := by
  cases type with
  | param name byRef =>
    refine ⟨refMark byRef ++ [.word name], ?_, fun args => .param args byRef htype⟩
    intro rest
    simp [TypeArgument.print, isText_ref byRef _, lexemes]
  | concrete type =>
    obtain ⟨byRef, path⟩ := type
    obtain ⟨hpath, hlone⟩ := htype
    obtain ⟨text, htext, hderives⟩ := Segment.printPath_derives path hpath h
    refine ⟨refMark byRef ++ text, ?_, fun args => .concrete args byRef hderives ?_⟩
    · intro rest
      simp [TypeArgument.print, TypeRef.print, isText_ref byRef _, htext rest]
    · exact fun word hword htext => hlone word hword (hderives.lone_word htext)

theorem TypeArgument.printMore_derives (types : List TypeArgument)
    (htypes : ∀ t ∈ types, t.WellFormed)
    (h : ∀ t ∈ TypeArgument.nestedList types, t.Printable) :
    ∃ text, IsText (TypeArgument.printMore types) text ∧ Extends text types [] := by
  cases types with
  | nil => exact ⟨[], fun rest => rfl, extends_nil⟩
  | cons type types =>
    simp only [TypeArgument.nestedList, List.forall_mem_append] at h
    rw [List.forall_mem_cons] at htypes
    obtain ⟨text, htext, hderives⟩ := type.print_derives htypes.1 h.1
    obtain ⟨text', htext', hextends⟩ := TypeArgument.printMore_derives types htypes.2 h.2
    refine ⟨.comma :: text ++ text', ?_, extends_type hderives hextends⟩
    intro rest
    simp [TypeArgument.printMore, lexemes, htext _, htext' _]

theorem Segment.printPath_derives (path : List Segment) (hpath : path ≠ [])
    (h : ∀ t ∈ Segment.nestedPath path, t.Printable) :
    ∃ text, IsText (Segment.printPath path) text ∧ Derives (.path path) text := by
  cases path with
  | nil => exact absurd rfl hpath
  | cons first path =>
    simp only [Segment.nestedPath, List.forall_mem_append] at h
    obtain ⟨text, htext, hderives⟩ := first.print_derives h.1
    obtain ⟨text', htext', hderives'⟩ := Segment.printMore_derives path h.2
    refine ⟨text ++ text', ?_, .path (hderives []) (hderives' [first])⟩
    intro rest
    simp [Segment.printPath, htext _, htext' _]

theorem Segment.printMore_derives (path : List Segment)
    (h : ∀ t ∈ Segment.nestedPath path, t.Printable) :
    ∃ text, IsText (Segment.printMore path) text ∧
      ∀ before, Derives (.segments before (before ++ path)) text := by
  cases path with
  | nil => exact ⟨[], fun rest => rfl, fun before => by simpa using .noMore before⟩
  | cons first path =>
    simp only [Segment.nestedPath, List.forall_mem_append] at h
    obtain ⟨text, htext, hderives⟩ := first.print_derives h.1
    obtain ⟨text', htext', hderives'⟩ := Segment.printMore_derives path h.2
    refine ⟨.pathSeparator :: text ++ text', ?_, fun before => ?_⟩
    · intro rest
      simp [Segment.printMore, lexemes, htext _, htext' _]
    · have hmore := hderives' (before ++ [first])
      rw [List.append_assoc, List.singleton_append] at hmore
      exact .more (hderives before) hmore

end

/-! ## Printed declarations -/

theorem Declaration.print_derives {d : Declaration} (hd : d.WellFormed)
    (hnames : d.GenericsAtNames) : DerivesDeclaration d (lexemes d.print) := by
  have hprintable : ∀ s ∈ d.nested, s.Printable := fun s hs => ⟨hd.nested s hs, hnames s hs⟩
  obtain ⟨segments, traitClause⟩ := d
  cases traitClause with
  | none =>
    simp only [Declaration.nested, Option.elim_none, List.append_nil] at hprintable
    cases segments with
    | nil => simpa using hd.nonempty
    | cons first path =>
      simp only [Segment.nestedPath, List.forall_mem_append] at hprintable
      obtain ⟨text, htext, hderives⟩ := first.print_derives hprintable.1
      obtain ⟨text', htext', hderives'⟩ := Segment.printMore_derives path hprintable.2
      have hlexemes : lexemes (Declaration.print ⟨first :: path, none⟩) = text ++ text' := by
        simp [Declaration.print, Segment.printPath, htext _, htext' _, lexemes]
      rw [hlexemes]
      have hhead := DerivesHead.plain (hderives []) (hderives []).segment_start.implWord
      exact .mk hhead (hderives' [first])
  | some clause =>
    obtain ⟨implementedTrait, type⟩ := clause
    simp only [Declaration.nested, Option.elim_some, TraitClause.nested,
      List.forall_mem_append] at hprintable
    obtain ⟨htrait, htype⟩ := hd.clause _ rfl
    obtain ⟨text, htext, hderives⟩ := type.print_derives htype hprintable.2.2
    obtain ⟨text', htext', hderives'⟩ :=
      Segment.printPath_derives implementedTrait htrait hprintable.2.1
    obtain ⟨text'', htext'', hderives''⟩ := Segment.printMore_derives segments hprintable.1
    have hlexemes : lexemes (Declaration.print ⟨segments, some ⟨implementedTrait, type⟩⟩) =
        .less :: text ++ .asWord :: text' ++ [.greater] ++ text'' := by
      simp [Declaration.print, lexemes, htext _, htext' _, htext'' _]
    rw [hlexemes]
    exact .mk (.asClause hderives hderives') (hderives'' [])

end CrateTrace.Name
