import CrateTrace.Proofs.Name.WellFormed

/-!
# The canonical text is cut where it was joined

Blanks stand around keywords and behind commas, so that no two words of a printed declaration meet.
-/

namespace CrateTrace.Name

/-- The text of these pieces is cut into just these lexemes. -/
structure Cuttable (pieces : List Piece) : Prop where
  lexical : ∀ l ∈ lexemes pieces, l.Lexical
  apart : Apart pieces

/-- So is the text with any lexeme in front of it. -/
structure Closing (pieces : List Piece) : Prop where
  cuttable : Cuttable pieces
  start : ∀ p ∈ pieces.head?, p.isWord = false

theorem closing_nil : Closing [] := ⟨⟨by simp [lexemes], .nil⟩, by simp⟩

theorem Closing.lexeme {rest : List Piece} (h : Closing rest) (l : Lexeme) (hl : l.Lexical) :
    Cuttable (.lexeme l :: rest) :=
  ⟨List.forall_mem_cons.mpr ⟨hl, h.cuttable.lexical⟩,
    h.cuttable.apart.cons fun p hp _ => h.start p hp⟩

theorem Cuttable.blank {rest : List Piece} (h : Cuttable rest) : Closing (.blank :: rest) :=
  ⟨⟨h.lexical, h.apart.cons fun _ _ hsticks => by cases hsticks⟩, by simp [Piece.isWord]⟩

/-- A sign may stand in front of anything and behind anything. -/
theorem Cuttable.sign {rest : List Piece} (h : Cuttable rest) (l : Lexeme)
    (hsign : l.sticks = false) : Closing (.lexeme l :: rest) := by
  have hl : l.Lexical := by
    cases l <;> trivial
  refine ⟨⟨List.forall_mem_cons.mpr ⟨hl, h.lexical⟩, ?_⟩, ?_⟩
  · refine h.apart.cons fun p _ hsticks => ?_
    rw [Piece.sticks, hsign] at hsticks
    cases hsticks
  · intro p hp
    cases hp
    cases l <;> first | rfl | cases hsign

theorem Cuttable.ref {rest : List Piece} (h : Cuttable rest) (byRef : Bool) :
    Cuttable (printRef byRef rest) := by
  cases byRef with
  | false => exact h
  | true => exact (h.sign .ampersand rfl).cuttable

theorem Lifetime.cuttable_print {lifetime : Lifetime} {rest : List Piece}
    (hname : isLifetimeName lifetime.name = true) (hrest : Closing rest) :
    Cuttable (lifetime.print rest) :=
  (hrest.lexeme (.lifetime lifetime.name) hname).ref lifetime.byRef

theorem Lifetime.closing_printMore {lifetimes : List Lifetime} {rest : List Piece}
    (hnames : ∀ l ∈ lifetimes, isLifetimeName l.name = true) (hrest : Closing rest) :
    Closing (Lifetime.printMore lifetimes rest) := by
  induction lifetimes with
  | nil => exact hrest
  | cons lifetime lifetimes ih =>
    rw [List.forall_mem_cons] at hnames
    exact (Lifetime.cuttable_print hnames.1 (ih hnames.2)).blank.cuttable.sign .comma rfl

/-! ## Words -/

def SegmentKind.Worded : SegmentKind → Prop
  | .name text => (Lexeme.word text).Lexical
  | _ => True

def TypeArgument.Worded : TypeArgument → Prop
  | .param name _ => (Lexeme.word name).Lexical
  | .concrete _ => True

structure Generics.Worded (args : Generics) : Prop where
  types : ∀ t ∈ args.types, t.Worded
  lifetimes : ∀ l ∈ args.lifetimes, isLifetimeName l.name = true

/-- Its words are identifiers other than `as`, `for` and `impl`, and its lifetimes are lifetimes.
It need not be well-formed, though. -/
structure Segment.Worded (s : Segment) : Prop where
  kind : s.kind.Worded
  generics : ∀ g ∈ s.generics, g.Worded

theorem Segment.WellFormed.worded {s : Segment} (h : s.WellFormed) : s.Worded := by
  obtain ⟨kind, args⟩ := s
  refine ⟨?_, fun g hg => ⟨fun t ht => ?_, (h.generics g hg).lifetimes⟩⟩
  · cases kind with
    | name text => exact h.kind
    | closure index => trivial
    | inherentImpl type => trivial
    | traitImpl clause => trivial
  · have htype := (h.generics g hg).types t ht
    cases t with
    | param name byRef => exact lexical_placeholder htype
    | concrete type => trivial

/-! ## Printed trees -/

mutual

theorem Segment.cuttable_print (s : Segment) (h : ∀ t ∈ s.nested, t.Worded)
    {rest : List Piece} (hrest : Closing rest) : Cuttable (s.print rest) := by
  cases s with
  | mk kind args =>
    simp only [Segment.nested, List.forall_mem_cons, List.forall_mem_append] at h
    obtain ⟨hsegment, hkind, hargs⟩ := h
    refine kind.cuttable_print hsegment.kind hkind ?_
    cases args with
    | none => exact hrest
    | some args => exact args.closing_print (hsegment.generics args rfl) hargs hrest

theorem SegmentKind.cuttable_print (kind : SegmentKind) (hkind : kind.Worded)
    (h : ∀ t ∈ kind.nested, t.Worded) {rest : List Piece} (hrest : Closing rest) :
    Cuttable (kind.print rest) := by
  cases kind with
  | name word => exact hrest.lexeme (.word word) hkind
  | closure index => exact hrest.lexeme (.closure index) trivial
  | inherentImpl type =>
    have hclose := hrest.cuttable.sign .greater rfl
    have htype := (type.cuttable_print h hclose).blank.lexeme .implWord trivial
    exact (htype.sign .less rfl).cuttable
  | traitImpl clause =>
    obtain ⟨implementedTrait, type⟩ := clause
    simp only [SegmentKind.nested, List.forall_mem_append] at h
    have hclose := hrest.cuttable.sign .greater rfl
    have htype := (type.cuttable_print h.2 hclose).blank.lexeme .forWord trivial
    have htrait := Segment.cuttable_printPath implementedTrait h.1 htype.blank
    exact ((htrait.blank.lexeme .implWord trivial).sign .less rfl).cuttable

theorem TypeRef.cuttable_print (type : TypeRef) (h : ∀ t ∈ type.nested, t.Worded)
    {rest : List Piece} (hrest : Closing rest) : Cuttable (type.print rest) := by
  cases type with
  | mk byRef path => exact (Segment.cuttable_printPath path h hrest).ref byRef

theorem Generics.closing_print (args : Generics) (hargs : args.Worded)
    (h : ∀ t ∈ args.nested, t.Worded) {rest : List Piece} (hrest : Closing rest) :
    Closing (args.print rest) := by
  obtain ⟨types, lifetimes⟩ := args
  have hclose := hrest.cuttable.sign .greater rfl
  cases lifetimes with
  | nil =>
    cases types with
    | nil => exact hclose.cuttable.sign .less rfl
    | cons type types =>
      simp only [Generics.nested, TypeArgument.nestedList, List.forall_mem_append] at h
      obtain ⟨htype, htypes⟩ := List.forall_mem_cons.mp hargs.types
      have hmore := TypeArgument.closing_printMore types htypes h.2 hclose
      exact (type.cuttable_print htype h.1 hmore).sign .less rfl
  | cons lifetime lifetimes =>
    simp only [Generics.nested] at h
    obtain ⟨hname, hnames⟩ := List.forall_mem_cons.mp hargs.lifetimes
    have hmore := TypeArgument.closing_printMore types hargs.types h hclose
    have hlifetimes := Lifetime.closing_printMore hnames hmore
    exact (Lifetime.cuttable_print hname hlifetimes).sign .less rfl

theorem TypeArgument.cuttable_print (type : TypeArgument) (htype : type.Worded)
    (h : ∀ t ∈ type.nested, t.Worded) {rest : List Piece} (hrest : Closing rest) :
    Cuttable (type.print rest) := by
  cases type with
  | param name byRef => exact (hrest.lexeme (.word name) htype).ref byRef
  | concrete type => exact type.cuttable_print h hrest

theorem TypeArgument.closing_printMore (types : List TypeArgument)
    (htypes : ∀ t ∈ types, t.Worded)
    (h : ∀ t ∈ TypeArgument.nestedList types, t.Worded) {rest : List Piece}
    (hrest : Closing rest) : Closing (TypeArgument.printMore types rest) := by
  cases types with
  | nil => exact hrest
  | cons type types =>
    simp only [TypeArgument.nestedList, List.forall_mem_append] at h
    rw [List.forall_mem_cons] at htypes
    have hmore := TypeArgument.closing_printMore types htypes.2 h.2 hrest
    exact (type.cuttable_print htypes.1 h.1 hmore).blank.cuttable.sign .comma rfl

theorem Segment.cuttable_printPath (path : List Segment)
    (h : ∀ t ∈ Segment.nestedPath path, t.Worded) {rest : List Piece} (hrest : Closing rest) :
    Cuttable (Segment.printPath path rest) := by
  cases path with
  | nil => exact hrest.cuttable
  | cons first path =>
    simp only [Segment.nestedPath, List.forall_mem_append] at h
    exact first.cuttable_print h.1 (Segment.closing_printMore path h.2 hrest)

theorem Segment.closing_printMore (path : List Segment)
    (h : ∀ t ∈ Segment.nestedPath path, t.Worded) {rest : List Piece} (hrest : Closing rest) :
    Closing (Segment.printMore path rest) := by
  cases path with
  | nil => exact hrest
  | cons first path =>
    simp only [Segment.nestedPath, List.forall_mem_append] at h
    have hmore := Segment.closing_printMore path h.2 hrest
    exact (first.cuttable_print h.1 hmore).sign .pathSeparator rfl

end

theorem Declaration.cuttable_print {d : Declaration} (hd : d.WellFormed) : Cuttable d.print := by
  obtain ⟨segments, traitClause⟩ := d
  have hworded : ∀ s ∈ Declaration.nested ⟨segments, traitClause⟩, s.Worded :=
    fun s hs => (hd.nested s hs).worded
  simp only [Declaration.nested, List.forall_mem_append] at hworded
  obtain ⟨hsegments, hclause⟩ := hworded
  cases traitClause with
  | none => exact Segment.cuttable_printPath segments hsegments closing_nil
  | some clause =>
    obtain ⟨implementedTrait, type⟩ := clause
    simp only [Option.elim, TraitClause.nested, List.forall_mem_append] at hclause
    have hclose := (Segment.closing_printMore segments hsegments closing_nil).cuttable.sign .greater rfl
    have htrait := Segment.cuttable_printPath implementedTrait hclause.1 hclose
    have has := (htrait.blank.lexeme .asWord trivial).blank
    exact ((type.cuttable_print hclause.2 has).sign .less rfl).cuttable

/-- The lexer cuts a canonical text into the lexemes that were printed. -/
theorem Declaration.tokens_display {d : Declaration} (hd : d.WellFormed) :
    ∃ ts, tokens d.display.toList = .ok ts ∧ ts.map (·.lexeme) = lexemes d.print :=
  tokensFrom_spell (Declaration.cuttable_print hd).lexical (Declaration.cuttable_print hd).apart 0

end CrateTrace.Name
