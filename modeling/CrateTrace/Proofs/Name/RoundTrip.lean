import CrateTrace.Proofs.Name.Completeness
import CrateTrace.Proofs.Name.Spacing
import CrateTrace.Proofs.Name.Turbofish
import Mathlib.Data.Set.Function

/-!
# Reading the canonical text

A canonical text is a name again just if generic arguments are at names only. A name may put them
at a closure or an `<impl …>` too, by a `::` that the printer does not write. Declarations that were
never read from a name have a canonical text too.
-/

namespace CrateTrace.Name

theorem wellFormed_of_parse {name : String} {d : Declaration} (h : parse name = .ok d) :
    d.WellFormed := by
  obtain ⟨ts, hts, hderives⟩ := derives_of_parse h
  refine hderives.wellFormed fun l hl => ?_
  obtain ⟨t, ht, rfl⟩ := List.mem_map.mp hl
  exact lexical_tokensFrom hts t ht

theorem parse_display {d : Declaration} (hd : d.WellFormed) (hnames : d.GenericsAtNames) :
    parse d.display = .ok d := by
  obtain ⟨ts, hts, hlexemes⟩ := Declaration.tokens_display hd
  refine parse_of_derives hts ?_
  rw [hlexemes]
  exact Declaration.print_derives hd hnames

theorem atNames_of_parse_display {d d' : Declaration} (hd : d.WellFormed)
    (h : parse d.display = .ok d') : d.GenericsAtNames := by
  obtain ⟨ts, hts, hlexemes⟩ := Declaration.tokens_display hd
  obtain ⟨ts', hts', hderives⟩ := derives_of_parse h
  rw [hts] at hts'
  cases hts'
  rw [hlexemes] at hderives
  exact Declaration.atNames_of_attached hderives.attached

/-- The canonical text of a name stands for the same declaration, or for none at all. -/
theorem parse_display_iff {name : String} {d : Declaration} (h : parse name = .ok d)
    (d' : Declaration) : parse d.display = .ok d' ↔ d' = d ∧ d.GenericsAtNames := by
  have hd := wellFormed_of_parse h
  constructor
  · intro hd'
    have hnames := atNames_of_parse_display hd hd'
    rw [parse_display hd hnames] at hd'
    exact ⟨(Except.ok.inj hd').symm, hnames⟩
  · rintro ⟨rfl, hnames⟩
    exact parse_display hd hnames

/-- `f::{{closure}}::<u32>` -/
def genericClosure : Declaration :=
  ⟨[⟨.name "f", none⟩,
    ⟨.closure none, some ⟨[.concrete ⟨false, [⟨.name "u32", none⟩]⟩], []⟩⟩], none⟩

theorem parse_display_genericClosure :
    parse "f::\x7b\x7bclosure\x7d\x7d::<u32>" = .ok genericClosure ∧
      ∀ d', parse genericClosure.display ≠ .ok d' := by
  have hparse : parse "f::\x7b\x7bclosure\x7d\x7d::<u32>" = .ok genericClosure := by
    decide +kernel
  refine ⟨hparse, fun d' hd' => ?_⟩
  obtain ⟨_, hnames⟩ := (parse_display_iff hparse d').mp hd'
  have hname := hnames ⟨.closure none, some ⟨[.concrete ⟨false, [⟨.name "u32", none⟩]⟩], []⟩⟩
    (by simp [genericClosure, Declaration.nested, Segment.nestedPath, Segment.nested])
  simp [Segment.GenericsAtName, SegmentKind.isName] at hname

/-- Not every canonical text is a name. -/
theorem display_not_reread :
    ¬ ∀ (name : String) (d : Declaration), parse name = .ok d → parse d.display = .ok d := by
  intro hall
  have hparse : parse "f::\x7b\x7bclosure\x7d\x7d::<u32>" = .ok genericClosure := by
    decide +kernel
  have hreread := hall _ _ hparse
  revert hreread
  decide +kernel

/-! ## Declarations that their text stands for -/

/-- A declaration, made in whatever way, is what its canonical text stands for just if it is
well-formed with generic arguments at names only. No two such declarations have the same text. -/
theorem reread_declarations :
    (∀ d : Declaration, parse d.display = .ok d ↔ d.WellFormed ∧ d.GenericsAtNames) ∧
      Set.InjOn Declaration.display {d | d.WellFormed ∧ d.GenericsAtNames} := by
  have hread : ∀ d : Declaration,
      parse d.display = .ok d ↔ d.WellFormed ∧ d.GenericsAtNames := by
    intro d
    constructor
    · intro h
      have hd := wellFormed_of_parse h
      exact ⟨hd, atNames_of_parse_display hd h⟩
    · rintro ⟨hd, hnames⟩
      exact parse_display hd hnames
  refine ⟨hread, ?_⟩
  intro d hd d' hd' htext
  have hparse := (hread d').mpr hd'
  rw [← htext, (hread d).mpr hd] at hparse
  exact Except.ok.inj hparse

/-- `<Vec<'a, T> as Index<&u8>>::<impl Fn<K2> for Set>::{closure#7}`, perhaps with an `&` in front of
the type. -/
def indexMethod (byRef : Bool) : Declaration :=
  let word (text : String) (types : List TypeArgument) (lifetimes : List Lifetime) : Segment :=
    ⟨.name text, some ⟨types, lifetimes⟩⟩
  let set : TypeRef := ⟨false, [⟨.name "Set", none⟩]⟩
  let u8 : TypeRef := ⟨true, [⟨.name "u8", none⟩]⟩
  ⟨[⟨.traitImpl ⟨[word "Fn" [.param "K2" false] []], set⟩, none⟩, ⟨.closure (some 7), none⟩],
    some ⟨[word "Index" [.concrete u8] []],
      ⟨byRef, [word "Vec" [.param "T" false] [⟨'a', false⟩]]⟩⟩⟩

/-- Another text of it, in which the trait stands first and a `::` in front of its arguments. -/
theorem parse_indexMethod (byRef : Bool) :
    parse ("<Index::<&u8> for " ++ (if byRef then "&" else "") ++
      "Vec<T, 'a>>::<impl Fn<K2> for Set>::\x7bclosure#7\x7d") = .ok (indexMethod byRef) := by
  cases byRef <;> decide +kernel

theorem reread_declarations_indexMethod :
    parse (indexMethod true).display = .ok (indexMethod true) ∧
      (indexMethod true).display ≠ (indexMethod false).display := by
  have hnames : ∀ byRef, (indexMethod byRef).GenericsAtNames := by
    simp [indexMethod, Declaration.GenericsAtNames, Segment.GenericsAtName, SegmentKind.isName,
      Declaration.nested, Segment.nestedPath, Segment.nested, SegmentKind.nested,
      TraitClause.nested, Generics.nestedOption, TypeArgument.nestedList, TypeArgument.nested]
  have hwritten : ∀ byRef, (indexMethod byRef).WellFormed :=
    fun byRef => wellFormed_of_parse (parse_indexMethod byRef)
  obtain ⟨hread, hinj⟩ := reread_declarations
  refine ⟨(hread _).mpr ⟨hwritten true, hnames true⟩, ?_⟩
  refine hinj.ne ⟨hwritten true, hnames true⟩ ⟨hwritten false, hnames false⟩ ?_
  decide +kernel

end CrateTrace.Name
