import CrateTrace.Proofs.Name.Grammar
import CrateTrace.Proofs.Name.Lexing

/-!
# Well-formed declarations

A condition on a tree is a condition on each of its segments, at whatever depth. What the grammar
derives from lexemes of a text is well-formed in this sense.
-/

namespace CrateTrace.Name

/-! ## Nested segments -/

mutual

/-- The segment itself and all segments inside it. -/
def Segment.nested : Segment → List Segment
  | ⟨kind, generics⟩ => ⟨kind, generics⟩ :: (kind.nested ++ Generics.nestedOption generics)

def SegmentKind.nested : SegmentKind → List Segment
  | .name _ => []
  | .closure _ => []
  | .inherentImpl type => type.nested
  | .traitImpl ⟨implementedTrait, type⟩ => Segment.nestedPath implementedTrait ++ type.nested

def TypeRef.nested : TypeRef → List Segment
  | ⟨_, path⟩ => Segment.nestedPath path

def Generics.nested : Generics → List Segment
  | ⟨types, _⟩ => TypeArgument.nestedList types

def Generics.nestedOption : Option Generics → List Segment
  | none => []
  | some generics => generics.nested

def TypeArgument.nested : TypeArgument → List Segment
  | .param _ _ => []
  | .concrete type => type.nested

def TypeArgument.nestedList : List TypeArgument → List Segment
  | [] => []
  | first :: types => first.nested ++ TypeArgument.nestedList types

def Segment.nestedPath : List Segment → List Segment
  | [] => []
  | first :: path => first.nested ++ Segment.nestedPath path

end

def TraitClause.nested : TraitClause → List Segment
  | ⟨implementedTrait, type⟩ => Segment.nestedPath implementedTrait ++ type.nested

/-- All segments of a declaration, at any depth. -/
def Declaration.nested (d : Declaration) : List Segment :=
  Segment.nestedPath d.segments ++ d.traitClause.elim [] TraitClause.nested

@[simp] theorem Segment.nestedPath_append (path path' : List Segment) :
    Segment.nestedPath (path ++ path') = Segment.nestedPath path ++ Segment.nestedPath path' := by
  induction path with
  | nil => rfl
  | cons first path ih => simp [Segment.nestedPath, ih]

@[simp] theorem TypeArgument.nestedList_append (types types' : List TypeArgument) :
    TypeArgument.nestedList (types ++ types') =
      TypeArgument.nestedList types ++ TypeArgument.nestedList types' := by
  induction types with
  | nil => rfl
  | cons first types ih => simp [TypeArgument.nestedList, ih]

@[simp] theorem TypeRef.nested_eq (type : TypeRef) : type.nested = Segment.nestedPath type.path := by
  cases type
  rfl

@[simp] theorem Generics.nested_eq (args : Generics) :
    args.nested = TypeArgument.nestedList args.types := by
  cases args
  rfl

/-! ## Conditions on one segment -/

def TraitClause.WellFormed (clause : TraitClause) : Prop :=
  clause.implementedTrait ≠ [] ∧ clause.implementingType.path ≠ []

def SegmentKind.WellFormed : SegmentKind → Prop
  | .name text => isIdentifier text = true ∧ text ∉ ["as", "for", "impl"]
  | .closure _ => True
  | .inherentImpl type => type.path ≠ []
  | .traitImpl clause => clause.WellFormed

/-- A type that is a lone placeholder would be read as a parameter. -/
def TypeArgument.WellFormed : TypeArgument → Prop
  | .param name _ => isPlaceholder name = true
  | .concrete type =>
    type.path ≠ [] ∧ ∀ word, isPlaceholder word = true → type.path ≠ [⟨.name word, none⟩]

structure Generics.WellFormed (args : Generics) : Prop where
  nonempty : args.types ≠ [] ∨ args.lifetimes ≠ []
  types : ∀ t ∈ args.types, t.WellFormed
  lifetimes : ∀ l ∈ args.lifetimes, isLifetimeName l.name = true

structure Segment.WellFormed (s : Segment) : Prop where
  kind : s.kind.WellFormed
  generics : ∀ g ∈ s.generics, g.WellFormed

structure Declaration.WellFormed (d : Declaration) : Prop where
  nested : ∀ s ∈ d.nested, s.WellFormed
  clause : ∀ c ∈ d.traitClause, c.WellFormed
  nonempty : d.segments ≠ [] ∨ d.traitClause.isSome = true

theorem lexical_placeholder {word : String} (h : isPlaceholder word = true) :
    (Lexeme.word word).Lexical := by
  have hkeyword : word ∉ ["as", "for", "impl"] := by
    intro hmem
    simp only [List.mem_cons, List.not_mem_nil, or_false] at hmem
    rcases hmem with rfl | rfl | rfl <;> revert h <;> decide
  refine ⟨?_, hkeyword⟩
  cases hchars : word.toList with
  | nil => simp [isPlaceholder, hchars] at h
  | cons c rest =>
    simp only [isPlaceholder, hchars, Bool.and_eq_true, List.all_eq_true] at h
    have halpha : c.isAlpha = true := (Bool.or_eq_true _ _).mpr (.inl h.1)
    have hrest : ∀ c ∈ rest, isWordPart c = true := by
      intro c hc
      have halphanum : c.isAlphanum = true := (Bool.or_eq_true _ _).mpr (.inr (h.2 c hc))
      simp [isWordPart, halphanum]
    simpa [isIdentifier, hchars, isWordStart, halpha] using hrest

/-! ## What is derived is well-formed -/

def WellFormedPath (path : List Segment) : Prop := ∀ s ∈ Segment.nestedPath path, s.WellFormed

/-- The arguments so far are well-formed, perhaps none. -/
structure WellFormedArgs (args : Generics) : Prop where
  types : ∀ t ∈ args.types, t.WellFormed
  lifetimes : ∀ l ∈ args.lifetimes, isLifetimeName l.name = true
  nested : ∀ s ∈ args.nested, s.WellFormed

/-- The condition on what a phrase stands for. A step keeps it. -/
def KeepsWellFormed : Phrase → Prop
  | .segment before after => after ≠ [] ∧ (WellFormedPath before → WellFormedPath after)
  | .segments before after =>
    (before ≠ [] → after ≠ []) ∧ (WellFormedPath before → WellFormedPath after)
  | .path segments => segments ≠ [] ∧ WellFormedPath segments
  | .type type => type.path ≠ [] ∧ WellFormedPath type.path
  | .argument before after | .arguments before after =>
    (after.types ≠ [] ∨ after.lifetimes ≠ []) ∧ (WellFormedArgs before → WellFormedArgs after)
  | .generics args => args.WellFormed ∧ ∀ s ∈ args.nested, s.WellFormed

theorem wellFormedPath_nil : WellFormedPath [] := by
  simp [WellFormedPath, Segment.nestedPath]

theorem wellFormedPath_append {path path' : List Segment} :
    WellFormedPath (path ++ path') ↔ WellFormedPath path ∧ WellFormedPath path' := by
  unfold WellFormedPath
  rw [Segment.nestedPath_append, List.forall_mem_append]

theorem wellFormedPath_singleton {s : Segment} :
    WellFormedPath [s] ↔
      s.WellFormed ∧ (∀ t ∈ s.kind.nested, t.WellFormed) ∧
        ∀ t ∈ Generics.nestedOption s.generics, t.WellFormed := by
  cases s
  unfold WellFormedPath
  simp only [Segment.nestedPath, List.append_nil, Segment.nested, List.forall_mem_cons,
    List.forall_mem_append]

theorem wellFormed_bare {kind : SegmentKind} (hkind : kind.WellFormed)
    (hnested : ∀ s ∈ kind.nested, s.WellFormed) : WellFormedPath [⟨kind, none⟩] :=
  wellFormedPath_singleton.mpr ⟨⟨hkind, by simp⟩, hnested, by simp [Generics.nestedOption]⟩

theorem wellFormed_generic {kind : SegmentKind} {args : Generics}
    (hbare : WellFormedPath [⟨kind, none⟩]) (hargs : args.WellFormed)
    (hnested : ∀ s ∈ args.nested, s.WellFormed) : WellFormedPath [⟨kind, some args⟩] := by
  obtain ⟨hsegment, hkind, _⟩ := wellFormedPath_singleton.mp hbare
  exact wellFormedPath_singleton.mpr ⟨⟨hsegment.kind, by simpa using hargs⟩, hkind, hnested⟩

theorem WellFormedArgs.addLifetime {args : Generics} {lifetime : Lifetime}
    (h : WellFormedArgs args) (hname : isLifetimeName lifetime.name = true) :
    WellFormedArgs (args.addLifetime lifetime) := by
  refine ⟨h.types, ?_, by simpa [Generics.addLifetime] using h.nested⟩
  exact List.forall_mem_append.mpr ⟨h.lifetimes, List.forall_mem_singleton.mpr hname⟩

theorem WellFormedArgs.addType {args : Generics} {type : TypeArgument} (h : WellFormedArgs args)
    (htype : type.WellFormed) (hnested : ∀ s ∈ type.nested, s.WellFormed) :
    WellFormedArgs (args.addType type) := by
  refine ⟨?_, h.lifetimes, ?_⟩
  · exact List.forall_mem_append.mpr ⟨h.types, List.forall_mem_singleton.mpr htype⟩
  · have hargs := h.nested
    rw [Generics.nested_eq] at hargs ⊢
    simp only [Generics.addType, TypeArgument.nestedList_append, TypeArgument.nestedList,
      List.append_nil, List.forall_mem_append]
    exact ⟨hargs, hnested⟩

theorem Derives.segment_ne_nil {before after : List Segment} {text : List Lexeme}
    (h : Derives (.segment before after) text) : after ≠ [] := by
  cases h <;> simp

/-- A lone bare name is not what a second segment leads to. -/
theorem Derives.segment_not_lone {before after : List Segment} {text : List Lexeme}
    (h : Derives (.segment before after) text) (hbefore : before ≠ []) (word : String) :
    after ≠ [⟨.name word, none⟩] := by
  cases h <;> simp_all [List.append_eq_singleton_iff]

theorem Derives.segments_lone {before after : List Segment} {text : List Lexeme} {word : String}
    (h : Derives (.segments before after) text) (hbefore : before ≠ [])
    (hlone : after = [⟨.name word, none⟩]) : text = [] ∧ before = after := by
  generalize hphrase : Phrase.segments before after = phrase at h
  induction h generalizing before with
  | noMore =>
    cases hphrase
    exact ⟨rfl, rfl⟩
  | more hsegment hmore ihsegment ihmore =>
    cases hphrase
    -- One more segment makes two, and a turbofish leaves arguments behind.
    obtain ⟨_, rfl⟩ := ihmore hsegment.segment_ne_nil rfl
    exact absurd hlone (hsegment.segment_not_lone hbefore word)
  | _ => cases hphrase

/-- A path that is one bare name was written as this name. -/
theorem Derives.lone_name {segments : List Segment} {text : List Lexeme} {word : String}
    (h : Derives (.path segments) text) (hlone : segments = [⟨.name word, none⟩]) :
    text = [.word word] := by
  cases h with
  | path hsegment hmore =>
    obtain ⟨rfl, hfirst⟩ := hmore.segments_lone hsegment.segment_ne_nil hlone
    rw [hlone] at hfirst
    generalize ([] : List Segment) = before at hsegment
    cases hsegment <;> simp_all [List.append_eq_singleton_iff]

theorem Derives.lone_word {segments : List Segment} {text : List Lexeme} {word : String}
    (h : Derives (.path segments) text) (hlone : text = [.word word]) :
    segments = [⟨.name word, none⟩] := by
  cases h with
  | path hsegment hmore =>
    generalize hbefore : ([] : List Segment) = before at hsegment
    cases hsegment with
    | name before word' =>
      subst hbefore
      cases hmore <;> simp_all
    | genericName before word' hargs =>
      obtain ⟨inner, rfl⟩ := hargs.generics_start
      simp at hlone
    | closure before index => simp at hlone
    | inherentImpl before htype => simp at hlone
    | traitImpl before htrait htype => simp at hlone
    | turbofish before kind hargs => simp at hbefore

theorem Derives.keepsWellFormed {phrase : Phrase} {text : List Lexeme} (h : Derives phrase text)
    (hlexical : ∀ l ∈ text, l.Lexical) : KeepsWellFormed phrase := by
  induction h with
  | name before word =>
    have hword : (Lexeme.word word).Lexical := hlexical _ (by simp)
    refine ⟨by simp, fun hbefore => wellFormedPath_append.mpr ⟨hbefore, ?_⟩⟩
    exact wellFormed_bare hword (by simp [SegmentKind.nested])
  | genericName before word hargs ih =>
    simp only [List.forall_mem_cons] at hlexical
    obtain ⟨hword, hlexical⟩ := hlexical
    obtain ⟨hargs, hnested⟩ := ih hlexical
    refine ⟨by simp, fun hbefore => wellFormedPath_append.mpr ⟨hbefore, ?_⟩⟩
    exact wellFormed_generic (wellFormed_bare hword (by simp [SegmentKind.nested])) hargs hnested
  | closure before index =>
    refine ⟨by simp, fun hbefore => wellFormedPath_append.mpr ⟨hbefore, ?_⟩⟩
    exact wellFormed_bare trivial (by simp [SegmentKind.nested])
  | inherentImpl before htype ih =>
    simp only [List.forall_mem_cons, List.forall_mem_append, List.cons_append] at hlexical
    obtain ⟨hpath, hnested⟩ := ih hlexical.2.2.1
    refine ⟨by simp, fun hbefore => wellFormedPath_append.mpr ⟨hbefore, ?_⟩⟩
    refine wellFormed_bare hpath ?_
    rw [SegmentKind.nested, TypeRef.nested_eq]
    exact hnested
  | traitImpl before htrait htype ihtrait ihtype =>
    simp only [List.forall_mem_cons, List.forall_mem_append, List.cons_append] at hlexical
    obtain ⟨_, _, ⟨hlexical, _, hlexical'⟩, _⟩ := hlexical
    obtain ⟨htrait, hnested⟩ := ihtrait hlexical
    obtain ⟨htype, hnested'⟩ := ihtype hlexical'
    refine ⟨by simp, fun hbefore => wellFormedPath_append.mpr ⟨hbefore, ?_⟩⟩
    refine wellFormed_bare ⟨htrait, htype⟩ ?_
    simp only [SegmentKind.nested, TypeRef.nested_eq, List.forall_mem_append]
    exact ⟨hnested, hnested'⟩
  | turbofish before kind hargs ih =>
    obtain ⟨hargs, hnested⟩ := ih hlexical
    refine ⟨by simp, fun hbefore => ?_⟩
    obtain ⟨hbefore, hlast⟩ := wellFormedPath_append.mp hbefore
    exact wellFormedPath_append.mpr ⟨hbefore, wellFormed_generic hlast hargs hnested⟩
  | noMore before => exact ⟨id, id⟩
  | more hsegment hmore ihsegment ihmore =>
    simp only [List.forall_mem_cons, List.forall_mem_append, List.cons_append] at hlexical
    obtain ⟨hfirst, hkeeps⟩ := ihsegment hlexical.2.1
    obtain ⟨hall, hkeeps'⟩ := ihmore hlexical.2.2
    exact ⟨fun _ => hall hfirst, fun hbefore => hkeeps' (hkeeps hbefore)⟩
  | path hsegment hmore ihsegment ihmore =>
    rw [List.forall_mem_append] at hlexical
    obtain ⟨hfirst, hkeeps⟩ := ihsegment hlexical.1
    obtain ⟨hall, hkeeps'⟩ := ihmore hlexical.2
    exact ⟨hall hfirst, hkeeps' (hkeeps wellFormedPath_nil)⟩
  | type byRef hpath ih =>
    rw [List.forall_mem_append] at hlexical
    exact ih hlexical.2
  | lifetime args byRef name =>
    have hname : (Lexeme.lifetime name).Lexical := hlexical _ (by simp)
    exact ⟨by simp [Generics.addLifetime], fun hargs => hargs.addLifetime hname⟩
  | param args byRef hword =>
    refine ⟨by simp [Generics.addType], fun hargs => hargs.addType hword ?_⟩
    simp [TypeArgument.nested]
  | concrete args byRef hpath hlonger ih =>
    rw [List.forall_mem_append] at hlexical
    obtain ⟨hsegments, hnested⟩ := ih hlexical.2
    refine ⟨by simp [Generics.addType], fun hargs => hargs.addType ⟨hsegments, ?_⟩ ?_⟩
    · exact fun word hword hlone => hlonger word hword (hpath.lone_name hlone)
    · rw [TypeArgument.nested, TypeRef.nested_eq]
      exact hnested
  | lastArgument hargument ih => exact ih hlexical
  | moreArguments hargument hmore ihargument ihmore =>
    simp only [List.forall_mem_cons, List.forall_mem_append] at hlexical
    obtain ⟨_, hkeeps⟩ := ihargument hlexical.1
    obtain ⟨hnonempty, hkeeps'⟩ := ihmore hlexical.2.2
    exact ⟨hnonempty, fun hargs => hkeeps' (hkeeps hargs)⟩
  | generics hargs ih =>
    simp only [List.forall_mem_cons, List.forall_mem_append, List.cons_append] at hlexical
    obtain ⟨hnonempty, hkeeps⟩ := ih hlexical.2.1
    have hargs := hkeeps ⟨by simp, by simp, by simp [Generics.nested, TypeArgument.nestedList]⟩
    exact ⟨⟨hnonempty, hargs.types, hargs.lifetimes⟩, hargs.nested⟩

/-! ## Declarations -/

theorem Declaration.forall_nested {d : Declaration} :
    (∀ s ∈ d.nested, s.WellFormed) ↔
      WellFormedPath d.segments ∧ ∀ c ∈ d.traitClause, ∀ s ∈ c.nested, s.WellFormed := by
  unfold Declaration.nested WellFormedPath
  rw [List.forall_mem_append]
  cases d.traitClause <;> simp

theorem wellFormed_clause {implementedTrait : List Segment} {type : TypeRef}
    (htrait : KeepsWellFormed (.path implementedTrait)) (htype : KeepsWellFormed (.type type)) :
    Declaration.WellFormed ⟨[], some ⟨implementedTrait, type⟩⟩ := by
  refine ⟨Declaration.forall_nested.mpr ⟨wellFormedPath_nil, ?_⟩, ?_, .inr rfl⟩
  · simp only [Option.mem_def, Option.some.injEq, forall_eq', TraitClause.nested,
      TypeRef.nested_eq, List.forall_mem_append]
    exact ⟨htrait.2, htype.2⟩
  · simpa using ⟨htrait.1, htype.1⟩

theorem wellFormed_plain {segments : List Segment} (hsegments : segments ≠ [])
    (h : WellFormedPath segments) : Declaration.WellFormed ⟨segments, none⟩ :=
  ⟨Declaration.forall_nested.mpr ⟨h, by simp⟩, by simp, .inl hsegments⟩

theorem DerivesHead.wellFormed {start : Declaration} {text : List Lexeme}
    (h : DerivesHead start text) (hlexical : ∀ l ∈ text, l.Lexical) : start.WellFormed := by
  cases h with
  | asClause htype htrait =>
    simp only [List.forall_mem_cons, List.forall_mem_append, List.cons_append] at hlexical
    obtain ⟨_, ⟨hlexical, _, hlexical'⟩, _⟩ := hlexical
    exact wellFormed_clause (htrait.keepsWellFormed hlexical') (htype.keepsWellFormed hlexical)
  | forClause htrait htype =>
    simp only [List.forall_mem_cons, List.forall_mem_append, List.cons_append] at hlexical
    obtain ⟨_, ⟨hlexical, _, hlexical'⟩, _⟩ := hlexical
    exact wellFormed_clause (htrait.keepsWellFormed hlexical) (htype.keepsWellFormed hlexical')
  | bracketed hpath =>
    simp only [List.forall_mem_cons, List.forall_mem_append, List.cons_append] at hlexical
    obtain ⟨hsegments, hkept⟩ := hpath.keepsWellFormed hlexical.2.1
    exact wellFormed_plain hsegments hkept
  | plain hsegment hstart =>
    obtain ⟨hsegments, hkeeps⟩ := hsegment.keepsWellFormed hlexical
    exact wellFormed_plain hsegments (hkeeps wellFormedPath_nil)

theorem DerivesDeclaration.wellFormed {d : Declaration} {text : List Lexeme}
    (h : DerivesDeclaration d text) (hlexical : ∀ l ∈ text, l.Lexical) : d.WellFormed := by
  cases h with
  | mk hhead hmore =>
    rw [List.forall_mem_append] at hlexical
    have hstart := hhead.wellFormed hlexical.1
    obtain ⟨hall, hkeeps⟩ := hmore.keepsWellFormed hlexical.2
    obtain ⟨hsegments, hclause⟩ := Declaration.forall_nested.mp hstart.nested
    refine ⟨Declaration.forall_nested.mpr ⟨hkeeps hsegments, hclause⟩, hstart.clause, ?_⟩
    exact hstart.nonempty.imp hall id

end CrateTrace.Name
