import CrateTrace.Proofs.Name.Printing

/-!
# Generic arguments need a name or a `::` in front

In a name that the grammar derives, no `<` stands right behind a closure or a `>`. The printer
leaves out the `::` of generic arguments wherever they are, so that what it prints for a closure or
an `<impl …>` with such arguments is no name.
-/

namespace CrateTrace.Name

/-- The last lexeme of a closure, an `<impl …>` or a generic list. -/
def Lexeme.closes : Lexeme → Bool
  | .closure _ | .greater => true
  | _ => false

def Attached (text : List Lexeme) : Prop :=
  text.IsChain fun a b => a.closes = true → b ≠ .less

theorem Attached.cons {text : List Lexeme} (h : Attached text) (l : Lexeme)
    (hl : l.closes = false) : Attached (l :: text) := by
  refine List.IsChain.cons h fun next _ hcloses => ?_
  rw [hl] at hcloses
  cases hcloses

theorem Attached.append {text text' : List Lexeme} (h : Attached text) (h' : Attached text')
    (hstart : text'.head? ≠ some .less) : Attached (text ++ text') := by
  refine List.IsChain.append h h' fun last _ next hnext _ hless => ?_
  subst hless
  exact hstart hnext

theorem Attached.ref {text : List Lexeme} (h : Attached text) (byRef : Bool) :
    Attached (refMark byRef ++ text) := by
  cases byRef with
  | false => exact h
  | true => exact h.cons .ampersand rfl

theorem Attached.close {text : List Lexeme} (h : Attached text) : Attached (text ++ [.greater]) :=
  h.append (.singleton _) (by simp)

/-! ## Derived texts -/

theorem Derives.segments_head {before after : List Segment} {text : List Lexeme}
    (h : Derives (.segments before after) text) : text.head? ≠ some .less := by
  cases h <;> simp

theorem Derives.attached {phrase : Phrase} {text : List Lexeme} (h : Derives phrase text) :
    Attached text := by
  induction h with
  | name before word => exact .singleton _
  | genericName before word hargs ih => exact ih.cons (.word word) rfl
  | closure before index => exact .singleton _
  | inherentImpl before htype ih => exact ((ih.cons .implWord rfl).cons .less rfl).close
  | traitImpl before htrait htype ihtrait ihtype =>
    have htype' := ihtype.cons .forWord rfl
    exact (((ihtrait.cons .implWord rfl).cons .less rfl).append htype' (by simp)).close
  | turbofish before kind hargs ih => exact ih
  | noMore before => exact .nil
  | more hsegment hmore ihsegment ihmore =>
    exact (ihsegment.cons .pathSeparator rfl).append ihmore hmore.segments_head
  | path hsegment hmore ihsegment ihmore => exact ihsegment.append ihmore hmore.segments_head
  | type byRef hpath ih => exact ih.ref byRef
  | lifetime args byRef name => exact Attached.ref (.singleton _) byRef
  | param args byRef hword => exact Attached.ref (.singleton _) byRef
  | concrete args byRef hpath hlonger ih => exact ih.ref byRef
  | lastArgument hargument ih => exact ih
  | moreArguments hargument hmore ihargument ihmore =>
    exact ihargument.append (ihmore.cons .comma rfl) (by simp)
  | generics hargs ih => exact (ih.cons .less rfl).close

theorem DerivesDeclaration.attached {d : Declaration} {text : List Lexeme}
    (h : DerivesDeclaration d text) : Attached text := by
  cases h with
  | mk hhead hmore =>
    refine Attached.append ?_ hmore.attached hmore.segments_head
    cases hhead with
    | asClause htype htrait =>
      have htrait' := htrait.attached.cons .asWord rfl
      exact ((htype.attached.cons .less rfl).append htrait' (by simp)).close
    | forClause htrait htype =>
      have htype' := htype.attached.cons .forWord rfl
      exact ((htrait.attached.cons .less rfl).append htype' (by simp)).close
    | bracketed hpath => exact (hpath.attached.cons .less rfl).close
    | plain hsegment hstart => exact hsegment.attached

/-! ## Printed texts -/

theorem Attached.tail {l : Lexeme} {text : List Lexeme} (h : Attached (l :: text)) :
    Attached text :=
  (List.isChain_cons.mp h).2

theorem Attached.not_less {l : Lexeme} {text : List Lexeme} (h : Attached (l :: text))
    (hl : l.closes = true) : text.head? ≠ some .less :=
  fun hless => (List.isChain_cons.mp h).1 .less hless hl rfl

theorem attached_of_ref {byRef : Bool} {rest : List Piece}
    (h : Attached (lexemes (printRef byRef rest))) : Attached (lexemes rest) := by
  cases byRef with
  | false => exact h
  | true => exact h.tail

theorem attached_of_lifetimes {lifetimes : List Lifetime} {rest : List Piece}
    (h : Attached (lexemes (Lifetime.printMore lifetimes rest))) : Attached (lexemes rest) := by
  induction lifetimes with
  | nil => exact h
  | cons lifetime lifetimes ih => exact ih (attached_of_ref h.tail).tail

theorem Generics.print_head (args : Generics) (rest : List Piece) :
    (lexemes (args.print rest)).head? = some .less := by
  obtain ⟨types, lifetimes⟩ := args
  cases lifetimes <;> rfl

mutual

theorem Segment.atNames_of_attached (s : Segment) {rest : List Piece}
    (h : Attached (lexemes (s.print rest))) :
    (∀ t ∈ s.nested, t.GenericsAtName) ∧ Attached (lexemes rest) := by
  cases s with
  | mk kind args =>
    obtain ⟨hkind, hrest, hname⟩ := kind.atNames_of_attached h
    simp only [Segment.nested, List.forall_mem_cons, List.forall_mem_append]
    cases args with
    | none =>
      refine ⟨⟨?_, hkind, by simp [Generics.nestedOption]⟩, hrest⟩
      exact fun hargs => absurd rfl hargs
    | some args =>
      obtain ⟨hargs, hrest⟩ := args.atNames_of_attached hrest
      -- Arguments of anything but a name would stand right behind what closes it.
      refine ⟨⟨fun _ => ?_, hkind, hargs⟩, hrest⟩
      by_contra hkind'
      exact hname (by simpa using hkind') (args.print_head rest)

/-- Only behind a name may generic arguments follow. -/
theorem SegmentKind.atNames_of_attached (kind : SegmentKind) {rest : List Piece}
    (h : Attached (lexemes (kind.print rest))) :
    (∀ t ∈ kind.nested, t.GenericsAtName) ∧ Attached (lexemes rest) ∧
      (kind.isName = false → (lexemes rest).head? ≠ some .less) := by
  cases kind with
  | name word => exact ⟨by simp [SegmentKind.nested], h.tail, fun hname => by cases hname⟩
  | closure index =>
    exact ⟨by simp [SegmentKind.nested], h.tail, fun _ => h.not_less rfl⟩
  | inherentImpl type =>
    obtain ⟨hnested, hclose⟩ := type.atNames_of_attached h.tail.tail
    exact ⟨hnested, hclose.tail, fun _ => hclose.not_less rfl⟩
  | traitImpl clause =>
    obtain ⟨implementedTrait, type⟩ := clause
    obtain ⟨htrait, hfor⟩ := Segment.atNames_of_attachedPath implementedTrait h.tail.tail
    obtain ⟨htype, hclose⟩ := type.atNames_of_attached hfor.tail
    simp only [SegmentKind.nested, List.forall_mem_append]
    exact ⟨⟨htrait, htype⟩, hclose.tail, fun _ => hclose.not_less rfl⟩

theorem TypeRef.atNames_of_attached (type : TypeRef) {rest : List Piece}
    (h : Attached (lexemes (type.print rest))) :
    (∀ t ∈ type.nested, t.GenericsAtName) ∧ Attached (lexemes rest) := by
  cases type with
  | mk byRef path => exact Segment.atNames_of_attachedPath path (attached_of_ref h)

theorem Generics.atNames_of_attached (args : Generics) {rest : List Piece}
    (h : Attached (lexemes (args.print rest))) :
    (∀ t ∈ args.nested, t.GenericsAtName) ∧ Attached (lexemes rest) := by
  obtain ⟨types, lifetimes⟩ := args
  cases lifetimes with
  | nil =>
    cases types with
    | nil => exact ⟨by simp [Generics.nested, TypeArgument.nestedList], h.tail.tail⟩
    | cons type types =>
      obtain ⟨htype, hmore⟩ := type.atNames_of_attached h.tail
      obtain ⟨htypes, hclose⟩ := TypeArgument.atNames_of_attachedMore types hmore
      simp only [Generics.nested, TypeArgument.nestedList, List.forall_mem_append]
      exact ⟨⟨htype, htypes⟩, hclose.tail⟩
  | cons lifetime lifetimes =>
    have htypes := attached_of_lifetimes (attached_of_ref h.tail).tail
    obtain ⟨htypes, hclose⟩ := TypeArgument.atNames_of_attachedMore types htypes
    exact ⟨htypes, hclose.tail⟩

theorem TypeArgument.atNames_of_attached (type : TypeArgument) {rest : List Piece}
    (h : Attached (lexemes (type.print rest))) :
    (∀ t ∈ type.nested, t.GenericsAtName) ∧ Attached (lexemes rest) := by
  cases type with
  | param name byRef => exact ⟨by simp [TypeArgument.nested], (attached_of_ref h).tail⟩
  | concrete type => exact type.atNames_of_attached h

theorem TypeArgument.atNames_of_attachedMore (types : List TypeArgument) {rest : List Piece}
    (h : Attached (lexemes (TypeArgument.printMore types rest))) :
    (∀ t ∈ TypeArgument.nestedList types, t.GenericsAtName) ∧ Attached (lexemes rest) := by
  cases types with
  | nil => exact ⟨by simp [TypeArgument.nestedList], h⟩
  | cons type types =>
    obtain ⟨htype, hmore⟩ := type.atNames_of_attached h.tail
    obtain ⟨htypes, hrest⟩ := TypeArgument.atNames_of_attachedMore types hmore
    simp only [TypeArgument.nestedList, List.forall_mem_append]
    exact ⟨⟨htype, htypes⟩, hrest⟩

theorem Segment.atNames_of_attachedPath (path : List Segment) {rest : List Piece}
    (h : Attached (lexemes (Segment.printPath path rest))) :
    (∀ t ∈ Segment.nestedPath path, t.GenericsAtName) ∧ Attached (lexemes rest) := by
  cases path with
  | nil => exact ⟨by simp [Segment.nestedPath], h⟩
  | cons first path =>
    obtain ⟨hfirst, hmore⟩ := first.atNames_of_attached h
    obtain ⟨hpath, hrest⟩ := Segment.atNames_of_attachedMore path hmore
    simp only [Segment.nestedPath, List.forall_mem_append]
    exact ⟨⟨hfirst, hpath⟩, hrest⟩

theorem Segment.atNames_of_attachedMore (path : List Segment) {rest : List Piece}
    (h : Attached (lexemes (Segment.printMore path rest))) :
    (∀ t ∈ Segment.nestedPath path, t.GenericsAtName) ∧ Attached (lexemes rest) := by
  cases path with
  | nil => exact ⟨by simp [Segment.nestedPath], h⟩
  | cons first path =>
    obtain ⟨hfirst, hmore⟩ := first.atNames_of_attached h.tail
    obtain ⟨hpath, hrest⟩ := Segment.atNames_of_attachedMore path hmore
    simp only [Segment.nestedPath, List.forall_mem_append]
    exact ⟨⟨hfirst, hpath⟩, hrest⟩

end

theorem Declaration.atNames_of_attached {d : Declaration} (h : Attached (lexemes d.print)) :
    d.GenericsAtNames := by
  unfold Declaration.GenericsAtNames Declaration.nested
  rw [List.forall_mem_append]
  obtain ⟨segments, traitClause⟩ := d
  cases traitClause with
  | none => exact ⟨(Segment.atNames_of_attachedPath segments h).1, by simp⟩
  | some clause =>
    obtain ⟨implementedTrait, type⟩ := clause
    obtain ⟨htype, has⟩ := type.atNames_of_attached h.tail
    obtain ⟨htrait, hclose⟩ := Segment.atNames_of_attachedPath implementedTrait has.tail
    obtain ⟨hsegments, _⟩ := Segment.atNames_of_attachedMore segments hclose.tail
    simp only [Option.elim_some, TraitClause.nested, List.forall_mem_append]
    exact ⟨hsegments, htrait, htype⟩

end CrateTrace.Name
