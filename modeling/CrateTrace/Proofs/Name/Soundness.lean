import CrateTrace.Proofs.Name.Grammar

/-!
# What the parser reads is derived

Each rule of the parser takes lexemes that stand for the value it gives. The induction is the
parser's own recursion.
-/

namespace CrateTrace.Name

theorem split_refMark (input : List Lexeme) :
    input = refMark (splitRef input).1 ++ (splitRef input).2.1 := by
  unfold splitRef refMark
  split <;> simp

theorem close_eq {opened : Nat} {input : List Lexeme} {p : Parsed input Unit}
    (h : close opened input = .ok p) : input = .greater :: p.rest := by
  unfold close at h
  split at h
  · cases h; rfl
  · cases h
  · simp [fault] at h

theorem traitPath_ok {type : TypeRef} {input : List Lexeme} {segments : List Segment}
    (h : traitPath type input = .ok segments) : type = ⟨false, segments⟩ := by
  unfold traitPath at h
  split at h
  · simp [fault] at h
  · next href =>
    cases h
    cases type
    simpa using href

theorem attach_some {args : Generics} {before after : List Segment}
    (h : attach args before = some after) :
    ∃ init kind, before = init ++ [⟨kind, none⟩] ∧ after = init ++ [⟨kind, some args⟩] := by
  unfold attach at h
  split at h
  · next kind hlast =>
    cases h
    obtain ⟨init, rfl⟩ := List.getLast?_eq_some_iff.mp hlast
    exact ⟨init, kind, rfl, by simp⟩
  · cases h

theorem lifetime?_some {input : List Lexeme} {p : Parsed input Char}
    (h : lifetime? input = some p) : input = .lifetime p.value :: p.rest := by
  unfold lifetime? at h
  split at h
  · cases h; rfl
  · cases h

theorem placeholder?_some {input : List Lexeme} {p : Parsed input String}
    (h : placeholder? input = some p) :
    input = .word p.value :: p.rest ∧ isPlaceholder p.value = true := by
  unfold placeholder? at h
  split at h
  · split at h
    · next hword =>
      cases h
      exact ⟨rfl, by simp_all⟩
    · cases h
  · cases h

theorem continuesPath_iff {input : List Lexeme} :
    continuesPath input = true ↔ ∃ rest, input = .pathSeparator :: rest ∨ input = .less :: rest := by
  unfold continuesPath
  split <;> simp_all

theorem placeholder?_none {input rest : List Lexeme} {word : String}
    (h : placeholder? input = none) (hinput : input = [.word word] ++ rest)
    (hword : isPlaceholder word = true) : continuesPath rest = true := by
  subst hinput
  simp only [placeholder?, List.cons_append, List.nil_append] at h
  split at h
  · cases h
  · next hcontinues => simpa [hword] using hcontinues

theorem moreSegments_shorter {before : List Segment} {rest : List Lexeme}
    {p : List Segment × Rest (.pathSeparator :: rest)}
    (h : moreSegments before (.pathSeparator :: rest) = .ok p) : p.2.1.length < rest.length := by
  unfold moreSegments at h
  split at h
  · cases h
  · next first behind hbehind _ =>
    split at h
    · cases h
    · next all last hlast _ =>
      cases h
      exact Nat.lt_of_le_of_lt hlast hbehind

theorem segment_generic_shorter {word : String} {inner : List Lexeme}
    {p : Parsed (.word word :: .less :: inner) (List Segment)}
    (h : segment [] (.word word :: .less :: inner) = .ok p) : p.rest.length < inner.length := by
  unfold segment at h
  split at h
  · cases h
  · next args _ =>
    cases h
    exact args.shorter

/-- A path does not stop behind a word that `::` or `<` follows. -/
theorem path_continues {word : String} {input rest : List Lexeme}
    {p : Parsed input (List Segment)} (hinput : input = [.word word] ++ rest)
    (hcontinues : continuesPath rest = true) (h : path input = .ok p) :
    p.rest.length < rest.length := by
  subst hinput
  unfold path at h
  split at h
  · cases h
  · next first behind _ hsegment =>
    split at h
    · cases h
    · next segments last hlast hmore =>
      cases h
      obtain ⟨inner, rfl | rfl⟩ := continuesPath_iff.mp hcontinues
      · have hbehind : behind = .pathSeparator :: inner := by
          unfold segment at hsegment
          simp_all
        subst hbehind
        exact Nat.lt_succ_of_lt (moreSegments_shorter hmore)
      · have hshorter := segment_generic_shorter hsegment
        exact Nat.lt_succ_of_lt (Nat.lt_of_le_of_lt hlast hshorter)

theorem Derives.path_of_type {segments : List Segment} {text : List Lexeme}
    (h : Derives (.type ⟨false, segments⟩) text) : Derives (.path segments) text := by
  cases h with
  | type byRef hpath => simpa [refMark] using hpath

/-! ## The rules -/

mutual

theorem segment_sound (before : List Segment) (input : List Lexeme)
    (p : Parsed input (List Segment)) (h : segment before input = .ok p) :
    ∃ text, input = text ++ p.rest ∧ Derives (.segment before p.value) text := by
  unfold segment at h
  split at h
  · next word inner =>
    split at h
    · cases h
    · next args hargs =>
      obtain ⟨text, htext, hderives⟩ := generics_sound _ _ inner args hargs
      cases h
      refine ⟨.word word :: (.less :: text ++ [.greater]), by simp [htext], ?_⟩
      exact .genericName before word (.generics hderives)
  · next word rest _ =>
    cases h
    exact ⟨[.word word], rfl, .name before word⟩
  · next index rest =>
    cases h
    exact ⟨[.closure index], rfl, .closure before index⟩
  · next inner =>
    split at h
    · cases h
    · next kind hkind =>
      obtain ⟨text, htext, hderives⟩ := implKind_sound before _ inner kind hkind
      cases h
      refine ⟨.less :: .implWord :: text ++ [.greater], by simp [htext], ?_⟩
      exact hderives
  · next inner _ =>
    split at h
    · cases h
    · next args hargs =>
      obtain ⟨text, htext, hderives⟩ := generics_sound _ _ inner args hargs
      split at h
      · next segments hattach =>
        obtain ⟨init, kind, rfl, rfl⟩ := attach_some hattach
        cases h
        exact ⟨.less :: text ++ [.greater], by simp [htext],
          .turbofish init kind (.generics hderives)⟩
      · cases h
  all_goals simp [fault] at h
termination_by 5 * input.length + 0
decreasing_by all_goals (subst_vars; simp only [List.length_cons] at *; omega)

theorem implKind_sound (before : List Segment) (opened : Nat) (input : List Lexeme)
    (p : Parsed input SegmentKind) (h : implKind opened input = .ok p) :
    ∃ text, input = text ++ .greater :: p.rest ∧
      Derives (.segment before (before ++ [⟨p.value, none⟩]))
        (.less :: .implWord :: text ++ [.greater]) := by
  unfold implKind at h
  split at h
  · cases h
  · next first rest hrest hfirst =>
    obtain ⟨text, htext, hderives⟩ := typeRef_sound input _ hfirst
    dsimp only at htext hderives
    split at h
    · next rest hrest =>
      have hshorter := hrest
      simp only [List.length_cons] at hshorter
      split at h
      · cases h
      · next implementedTrait htrait =>
        split at h
        · cases h
        · next type last hlast htype =>
          obtain ⟨text', htext', hderives'⟩ := typeRef_sound rest _ htype
          dsimp only at htext' hderives'
          split at h
          · cases h
          · next closed hclosed =>
            cases h
            cases traitPath_ok htrait
            refine ⟨text ++ .forWord :: text', ?_, ?_⟩
            · simpa [htext', close_eq hclosed] using htext
            · simpa using Derives.traitImpl before hderives.path_of_type hderives'
    · split at h
      · cases h
      · next closed hclosed =>
        cases h
        refine ⟨text, ?_, .inherentImpl before hderives⟩
        simpa [close_eq hclosed] using htext
termination_by 5 * input.length + 4
decreasing_by all_goals (subst_vars; simp only [List.length_cons] at *; omega)

theorem moreSegments_sound (before : List Segment) (input : List Lexeme)
    (p : List Segment × Rest input) (h : moreSegments before input = .ok p) :
    ∃ text, input = text ++ p.2.1 ∧ Derives (.segments before p.1) text := by
  unfold moreSegments at h
  split at h
  · next rest =>
    split at h
    · cases h
    · next between rest' _ hsegment =>
      obtain ⟨text, htext, hderives⟩ := segment_sound before rest _ hsegment
      split at h
      · cases h
      · next all last _ hmore =>
        obtain ⟨text', htext', hderives'⟩ := moreSegments_sound between rest' _ hmore
        cases h
        exact ⟨.pathSeparator :: text ++ text', by simp_all, .more hderives hderives'⟩
  · cases h
    exact ⟨[], rfl, .noMore before⟩
termination_by 5 * input.length + 1
decreasing_by all_goals (subst_vars; simp only [List.length_cons] at *; omega)

theorem path_sound (input : List Lexeme) (p : Parsed input (List Segment))
    (h : path input = .ok p) :
    ∃ text, input = text ++ p.rest ∧ Derives (.path p.value) text := by
  unfold path at h
  split at h
  · cases h
  · next first rest _ hfirst =>
    obtain ⟨text, htext, hderives⟩ := segment_sound [] input _ hfirst
    split at h
    · cases h
    · next segments last _ hmore =>
      obtain ⟨text', htext', hderives'⟩ := moreSegments_sound first rest _ hmore
      cases h
      exact ⟨text ++ text', by simp_all, .path hderives hderives'⟩
termination_by 5 * input.length + 2
decreasing_by all_goals omega

theorem typeRef_sound (input : List Lexeme) (p : Parsed input TypeRef)
    (h : typeRef input = .ok p) :
    ∃ text, input = text ++ p.rest ∧ Derives (.type p.value) text := by
  unfold typeRef at h
  have hmark := split_refMark input
  generalize splitRef input = mark at h hmark
  obtain ⟨byRef, body, hbody⟩ := mark
  dsimp only at h hmark
  split at h
  · cases h
  · next read hread =>
    obtain ⟨text, htext, hderives⟩ := path_sound body read hread
    cases h
    exact ⟨refMark byRef ++ text, by simp_all, .type byRef hderives⟩
termination_by 5 * input.length + 3
decreasing_by all_goals omega

theorem genericArgument_sound (args : Generics) (input : List Lexeme) (p : Parsed input Generics)
    (h : genericArgument args input = .ok p) :
    ∃ text, input = text ++ p.rest ∧ Derives (.argument args p.value) text := by
  unfold genericArgument at h
  have hmark := split_refMark input
  generalize splitRef input = mark at h hmark
  obtain ⟨byRef, body, hbody⟩ := mark
  dsimp only at h hmark
  split at h
  · next lifetime hlifetime =>
    cases h
    refine ⟨refMark byRef ++ [.lifetime lifetime.value], ?_, ?_⟩
    · simpa [← lifetime?_some hlifetime] using hmark
    · exact .lifetime args byRef lifetime.value
  · split at h
    · next word hword =>
      cases h
      obtain ⟨hbody, hplaceholder⟩ := placeholder?_some hword
      refine ⟨refMark byRef ++ [.word word.value], ?_, ?_⟩
      · simpa [← hbody] using hmark
      · exact .param args byRef hplaceholder
    · next hnone =>
      split at h
      · cases h
      · next read hread =>
        obtain ⟨text, htext, hderives⟩ := path_sound body read hread
        cases h
        refine ⟨refMark byRef ++ text, by simp_all, .concrete args byRef hderives ?_⟩
        -- A placeholder that nothing follows on would have been taken above.
        rintro word hword rfl
        have hcontinues := placeholder?_none hnone htext hword
        exact absurd (path_continues htext hcontinues hread) (Nat.lt_irrefl _)
termination_by 5 * input.length + 3
decreasing_by all_goals omega

theorem generics_sound (opened : Nat) (args : Generics) (input : List Lexeme)
    (p : Parsed input Generics) (h : generics opened args input = .ok p) :
    ∃ text, input = text ++ .greater :: p.rest ∧ Derives (.arguments args p.value) text := by
  unfold generics at h
  split at h
  · cases h
  · next first others =>
    split at h
    · cases h
    · next between rest hrest hargument =>
      obtain ⟨text, htext, hderives⟩ := genericArgument_sound args (first :: others) _ hargument
      dsimp only at htext hderives
      split at h
      · next rest hrest =>
        have hshorter := hrest
        simp only [List.length_cons] at hshorter
        split at h
        · cases h
        · next all hall =>
          obtain ⟨text', htext', hderives'⟩ := generics_sound opened between rest all hall
          cases h
          refine ⟨text ++ .comma :: text', ?_, .moreArguments hderives hderives'⟩
          simp [htext, htext']
      · split at h
        · cases h
        · next closed hclosed =>
          cases h
          refine ⟨text, ?_, .lastArgument hderives⟩
          simpa [← close_eq hclosed] using htext
termination_by 5 * input.length + 4
decreasing_by all_goals (subst_vars; simp only [List.length_cons] at *; omega)

end

/-! ## Declarations -/

theorem qualifiedHead_sound {opened : Nat} {input : List Lexeme} {p : Parsed input Declaration}
    (h : qualifiedHead opened input = .ok p) :
    ∃ text, .less :: input = text ++ p.rest ∧ DerivesHead p.value text := by
  unfold qualifiedHead at h
  split at h
  · cases h
  · next first rest hrest hfirst =>
    obtain ⟨text, htext, hderives⟩ := typeRef_sound input _ hfirst
    dsimp only at htext hderives
    split at h
    · next rest hrest =>
      split at h
      · cases h
      · next implementedTrait last hlast htrait =>
        obtain ⟨text', htext', hderives'⟩ := path_sound rest _ htrait
        dsimp only at htext' hderives'
        split at h
        · cases h
        · next closed hclosed =>
          cases h
          refine ⟨.less :: text ++ .asWord :: text' ++ [.greater], ?_, ?_⟩
          · simp [htext, htext', close_eq hclosed]
          · exact .asClause hderives hderives'
    · next rest hrest =>
      split at h
      · cases h
      · next implementedTrait htrait =>
        split at h
        · cases h
        · next type last hlast htype =>
          obtain ⟨text', htext', hderives'⟩ := typeRef_sound rest _ htype
          dsimp only at htext' hderives'
          split at h
          · cases h
          · next closed hclosed =>
            cases h
            cases traitPath_ok htrait
            refine ⟨.less :: text ++ .forWord :: text' ++ [.greater], ?_, ?_⟩
            · simp [htext, htext', close_eq hclosed]
            · exact .forClause hderives.path_of_type hderives'
    · split at h
      · simp [fault] at h
      · next href =>
        split at h
        · cases h
        · next closed hclosed =>
          cases h
          obtain ⟨byRef, segments⟩ := first
          obtain rfl : byRef = false := by simpa using href
          refine ⟨.less :: text ++ [.greater], ?_, ?_⟩
          · simp [htext, close_eq hclosed]
          · exact .bracketed hderives.path_of_type

theorem plainHead_sound {input : List Lexeme} {p : Parsed input Declaration}
    (h : plainHead input = .ok p) :
    ∃ text, input = text ++ p.rest ∧ DerivesHead p.value text := by
  unfold plainHead at h
  split at h
  · cases h
  · next segments hsegment =>
    obtain ⟨text, htext, hderives⟩ := segment_sound [] input _ hsegment
    cases h
    exact ⟨text, htext, .plain hderives hderives.segment_start.implWord⟩

theorem head_sound {input : List Lexeme} {p : Parsed input Declaration} (h : head input = .ok p) :
    ∃ text, input = text ++ p.rest ∧ DerivesHead p.value text := by
  unfold head at h
  split at h
  · exact plainHead_sound h
  · next inner _ =>
    split at h
    · cases h
    · next start hstart =>
      cases h
      exact qualifiedHead_sound hstart
  · exact plainHead_sound h

theorem declaration_sound {input : List Lexeme} {d : Declaration} (h : declaration input = .ok d) :
    DerivesDeclaration d input := by
  unfold declaration at h
  split at h
  · cases h
  · next start rest _ hhead =>
    obtain ⟨text, htext, hderives⟩ := head_sound hhead
    split at h
    · cases h
    · next segments last _ hmore =>
      obtain ⟨text', htext', hderives'⟩ := moreSegments_sound start.segments rest _ hmore
      split at h
      · cases h
        simp only [htext, htext', List.append_nil]
        exact .mk hderives hderives'
      · cases h

end CrateTrace.Name
