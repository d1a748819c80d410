import CrateTrace.Proofs.Name.Soundness

/-!
# What is derived is read

The rule for a phrase takes exactly the text of a derivation, if what follows cannot belong to it:
behind a segment no `<`, behind a path neither `::` nor `<`.
-/

namespace CrateTrace.Name

/-- The rule takes from `input` what stands for `value` and leaves `rest`. -/
def Reads {α : Type} (rule : (input : List Lexeme) → Reading input α) (input : List Lexeme)
    (value : α) (rest : List Lexeme) : Prop :=
  ∃ p, rule input = .ok p ∧ p.value = value ∧ p.rest = rest

theorem Reads.ok {α : Type} {rule : (input : List Lexeme) → Reading input α}
    {input rest : List Lexeme} {value : α} (h : Reads rule input value rest) :
    ∃ hshorter, rule input = .ok ⟨value, rest, hshorter⟩ := by
  obtain ⟨p, hread, rfl, rfl⟩ := h
  exact ⟨p.shorter, hread⟩

def ReadsMore (before : List Segment) (input : List Lexeme) (after : List Segment)
    (rest : List Lexeme) : Prop :=
  ∃ hle, moreSegments before input = .ok (after, ⟨rest, hle⟩)

/-- What the rule for a phrase makes of `text`, in front of anything that may follow it. -/
def IsRead : Phrase → List Lexeme → Prop
  | .segment before after, text =>
    ∀ rest, rest.head? ≠ some .less → Reads (segment before) (text ++ rest) after rest
  | .segments before after, text =>
    ∀ rest, continuesPath rest = false → ReadsMore before (text ++ rest) after rest
  | .path segments, text =>
    ∀ rest, continuesPath rest = false → Reads path (text ++ rest) segments rest
  | .type type, text =>
    ∀ rest, continuesPath rest = false → Reads typeRef (text ++ rest) type rest
  | .argument before after, text =>
    ∀ rest, continuesPath rest = false → Reads (genericArgument before) (text ++ rest) after rest
  | .arguments before after, text =>
    ∀ opened rest, Reads (generics opened before) (text ++ .greater :: rest) after rest
  | .generics args, text =>
    ∃ first inner, text = .less :: first :: inner ∧ first ≠ .implWord ∧
      ∀ opened rest, Reads (generics opened ⟨[], []⟩) (first :: inner ++ rest) args rest

/-! ## Segments -/

theorem reads_word (before : List Segment) (word : String) {rest : List Lexeme}
    (h : rest.head? ≠ some .less) :
    Reads (segment before) (.word word :: rest) (before ++ [⟨.name word, none⟩]) rest := by
  unfold Reads
  rw [segment]
  · exact ⟨_, rfl, rfl, rfl⟩
  · rintro inner rfl
    simp at h

theorem reads_genericWord (before : List Segment) (word : String) {inner rest : List Lexeme}
    {args : Generics} (h : ∀ opened, Reads (generics opened ⟨[], []⟩) inner args rest) :
    Reads (segment before) (.word word :: .less :: inner) (before ++ [⟨.name word, some args⟩])
      rest := by
  obtain ⟨hshorter, hinner⟩ := (h (inner.length + 1)).ok
  unfold Reads segment
  simp only [hinner]
  exact ⟨_, rfl, rfl, rfl⟩

theorem attach_last (args : Generics) (before : List Segment) (kind : SegmentKind) :
    attach args (before ++ [⟨kind, none⟩]) = some (before ++ [⟨kind, some args⟩]) := by
  simp [attach]

theorem reads_turbofish (before : List Segment) (kind : SegmentKind) {first : Lexeme}
    {inner rest : List Lexeme} {args : Generics} (hfirst : first ≠ .implWord)
    (h : ∀ opened, Reads (generics opened ⟨[], []⟩) (first :: inner) args rest) :
    Reads (segment (before ++ [⟨kind, none⟩])) (.less :: first :: inner)
      (before ++ [⟨kind, some args⟩]) rest := by
  obtain ⟨hshorter, hinner⟩ := (h ((first :: inner).length + 1)).ok
  unfold Reads
  rw [segment]
  · simp only [hinner, attach_last]
    exact ⟨_, rfl, rfl, rfl⟩
  · rintro inner' ⟨⟩
    exact hfirst rfl

theorem reads_impl (before : List Segment) {inner rest : List Lexeme} {kind : SegmentKind}
    (h : ∀ opened, Reads (implKind opened) inner kind rest) :
    Reads (segment before) (.less :: .implWord :: inner) (before ++ [⟨kind, none⟩]) rest := by
  obtain ⟨hshorter, hinner⟩ := (h (inner.length + 2)).ok
  unfold Reads segment
  simp only [hinner]
  exact ⟨_, rfl, rfl, rfl⟩

theorem reads_inherentImpl {opened : Nat} {input rest : List Lexeme} {type : TypeRef}
    (h : Reads typeRef input type (.greater :: rest)) :
    Reads (implKind opened) input (.inherentImpl type) rest := by
  obtain ⟨hshorter, hread⟩ := h.ok
  unfold Reads implKind
  simp only [hread, close]
  exact ⟨_, rfl, rfl, rfl⟩

theorem reads_traitImpl {opened : Nat} {input rest rest' : List Lexeme} {type : TypeRef}
    {implementedTrait : List Segment}
    (htrait : Reads typeRef input ⟨false, implementedTrait⟩ (.forWord :: rest))
    (htype : Reads typeRef rest type (.greater :: rest')) :
    Reads (implKind opened) input (.traitImpl ⟨implementedTrait, type⟩) rest' := by
  obtain ⟨_, htrait⟩ := htrait.ok
  obtain ⟨_, htype⟩ := htype.ok
  unfold Reads implKind
  simp only [htrait, htype, traitPath, close, Bool.false_eq_true, if_false]
  exact ⟨_, rfl, rfl, rfl⟩

/-! ## Paths and types -/

theorem moreSegments_stop (before : List Segment) {rest : List Lexeme}
    (h : continuesPath rest = false) :
    ReadsMore before rest before rest := by
  refine ⟨Nat.le_refl _, ?_⟩
  unfold moreSegments
  split
  · cases h
  · rfl

theorem moreSegments_more {before between after : List Segment} {input rest last : List Lexeme}
    (hsegment : Reads (segment before) input between rest)
    (hmore : ReadsMore between rest after last) :
    ReadsMore before (.pathSeparator :: input) after last := by
  obtain ⟨_, hsegment⟩ := hsegment.ok
  obtain ⟨_, hmore⟩ := hmore
  unfold ReadsMore moreSegments
  simp only [hsegment, hmore, exists_prop, and_true]
  simp only [List.length_cons]
  omega

theorem reads_path {first segments : List Segment} {input rest last : List Lexeme}
    (hsegment : Reads (segment []) input first rest)
    (hmore : ReadsMore first rest segments last) :
    Reads path input segments last := by
  obtain ⟨_, hsegment⟩ := hsegment.ok
  obtain ⟨_, hmore⟩ := hmore
  unfold Reads path
  simp only [hsegment, hmore]
  exact ⟨_, rfl, rfl, rfl⟩

theorem splitRef_refMark (byRef : Bool) (text : List Lexeme)
    (h : text.head? ≠ some .ampersand) :
    ∃ hle, splitRef (refMark byRef ++ text) = (byRef, ⟨text, hle⟩) := by
  cases byRef with
  | true => exact ⟨_, rfl⟩
  | false =>
    change ∃ hle, splitRef text = (false, ⟨text, hle⟩)
    refine ⟨Nat.le_refl _, ?_⟩
    rw [splitRef]
    rintro rest rfl
    simp at h

theorem reads_type (byRef : Bool) {segments : List Segment} {text rest : List Lexeme}
    (hstart : text.head? ≠ some .ampersand) (h : Reads path text segments rest) :
    Reads typeRef (refMark byRef ++ text) ⟨byRef, segments⟩ rest := by
  obtain ⟨_, hsplit⟩ := splitRef_refMark byRef text hstart
  obtain ⟨_, hread⟩ := h.ok
  unfold Reads typeRef
  rw [hsplit]
  simp only [hread]
  exact ⟨_, rfl, rfl, rfl⟩

/-! ## Generic arguments -/

theorem reads_lifetime (args : Generics) (byRef : Bool) (name : Char) (rest : List Lexeme) :
    Reads (genericArgument args) (refMark byRef ++ .lifetime name :: rest)
      (args.addLifetime ⟨name, byRef⟩) rest := by
  obtain ⟨_, hsplit⟩ := splitRef_refMark byRef (.lifetime name :: rest) (by simp)
  unfold Reads genericArgument
  rw [hsplit]
  exact ⟨_, rfl, rfl, rfl⟩

theorem reads_param (args : Generics) (byRef : Bool) {word : String} {rest : List Lexeme}
    (hword : isPlaceholder word = true) (hrest : continuesPath rest = false) :
    Reads (genericArgument args) (refMark byRef ++ .word word :: rest)
      (args.addType (.param word byRef)) rest := by
  obtain ⟨_, hsplit⟩ := splitRef_refMark byRef (.word word :: rest) (by simp)
  unfold Reads genericArgument
  rw [hsplit]
  simp only [lifetime?, placeholder?, hword, hrest]
  exact ⟨_, rfl, rfl, rfl⟩

theorem reads_concrete (args : Generics) (byRef : Bool) {segments : List Segment}
    {text rest : List Lexeme} (hstart : text.head? ≠ some .ampersand)
    (hlifetime : lifetime? text = none) (hplaceholder : placeholder? text = none)
    (h : Reads path text segments rest) :
    Reads (genericArgument args) (refMark byRef ++ text)
      (args.addType (.concrete ⟨byRef, segments⟩)) rest := by
  obtain ⟨_, hsplit⟩ := splitRef_refMark byRef text hstart
  obtain ⟨_, hread⟩ := h.ok
  unfold Reads genericArgument
  rw [hsplit]
  simp only [hlifetime, hplaceholder, hread]
  exact ⟨_, rfl, rfl, rfl⟩

theorem reads_lastArgument {opened : Nat} {before after : Generics} {input rest : List Lexeme}
    (h : Reads (genericArgument before) input after (.greater :: rest)) :
    Reads (generics opened before) input after rest := by
  obtain ⟨hshorter, hread⟩ := h.ok
  cases input with
  | nil => simp at hshorter
  | cons first others =>
    unfold Reads generics
    simp only [hread, close]
    exact ⟨_, rfl, rfl, rfl⟩

theorem reads_moreArguments {opened : Nat} {before between after : Generics}
    {input rest last : List Lexeme}
    (hargument : Reads (genericArgument before) input between (.comma :: rest))
    (hmore : Reads (generics opened between) rest after last) :
    Reads (generics opened before) input after last := by
  obtain ⟨hshorter, hread⟩ := hargument.ok
  obtain ⟨_, hmore⟩ := hmore.ok
  cases input with
  | nil => simp at hshorter
  | cons first others =>
    unfold Reads generics
    simp only [hread, hmore]
    exact ⟨_, rfl, rfl, rfl⟩

/-! ## Derivations -/

theorem StartsPath.not_ampersand {text : List Lexeme} (h : StartsPath text) :
    text.head? ≠ some .ampersand := by
  cases h <;> simp

theorem StartsPath.lifetime?_eq {text : List Lexeme} (h : StartsPath text) :
    lifetime? text = none := by
  cases h <;> rfl

/-- A trait is read as a type first. -/
theorem reads_asType {segments : List Segment} {text rest : List Lexeme}
    (hpath : Derives (.path segments) text) (h : Reads path (text ++ rest) segments rest) :
    Reads typeRef (text ++ rest) ⟨false, segments⟩ rest := by
  have hstart := (hpath.path_start.append rest).not_ampersand
  simpa [refMark] using reads_type false hstart h

/-- Behind a segment stands a `::` or whatever follows the path. -/
theorem Derives.segments_follow {before after : List Segment} {text rest : List Lexeme}
    (h : Derives (.segments before after) text) (hrest : continuesPath rest = false) :
    (text ++ rest).head? ≠ some .less := by
  cases h with
  | noMore =>
    intro hless
    obtain ⟨inner, rfl⟩ := List.head?_eq_some_iff.mp hless
    cases hrest
  | more hsegment hmore => simp

theorem continuesPath_append {text : List Lexeme} (h : continuesPath text = true)
    (rest : List Lexeme) : continuesPath (text ++ rest) = true := by
  obtain ⟨inner, rfl | rfl⟩ := continuesPath_iff.mp h <;> rfl

theorem Derives.not_placeholder {segments : List Segment} {text : List Lexeme}
    (h : Derives (.path segments) text)
    (hlonger : ∀ word, isPlaceholder word = true → text ≠ [.word word]) (rest : List Lexeme) :
    placeholder? (text ++ rest) = none := by
  cases h.path_start with
  | word word more =>
    unfold placeholder?
    simp only [List.cons_append]
    obtain rfl | hcontinues := h.behind_word rfl
    · have hword : isPlaceholder word = false := by
        simpa using fun hword => hlonger word hword rfl
      simp [hword]
    · simp [continuesPath_append hcontinues rest]
  | closure index more => rfl
  | impl more => rfl

theorem Derives.isRead {phrase : Phrase} {text : List Lexeme} (h : Derives phrase text) :
    IsRead phrase text := by
  induction h with
  | name before word => exact fun rest hrest => reads_word before word hrest
  | genericName before word hargs ih =>
    obtain ⟨first, inner, rfl, _, hread⟩ := ih
    exact fun rest _ => reads_genericWord before word fun opened => hread opened rest
  | closure before index =>
    intro rest _
    unfold Reads
    rw [List.cons_append, segment]
    exact ⟨_, rfl, rfl, rfl⟩
  | inherentImpl before htype ih =>
    intro rest _
    simpa using reads_impl before fun opened => reads_inherentImpl (ih (.greater :: rest) rfl)
  | traitImpl before htrait htype ihtrait ihtype =>
    rename_i implementedTrait type text text'
    intro rest _
    have hread := reads_asType htrait (ihtrait (.forWord :: text' ++ .greater :: rest) rfl)
    simpa using reads_impl before fun opened =>
      reads_traitImpl hread (ihtype (.greater :: rest) rfl)
  | turbofish before kind hargs ih =>
    obtain ⟨first, inner, rfl, hfirst, hread⟩ := ih
    exact fun rest _ => reads_turbofish before kind hfirst fun opened => hread opened rest
  | noMore before => exact fun rest hrest => moreSegments_stop before hrest
  | more hsegment hmore ihsegment ihmore =>
    rename_i text text'
    intro rest hrest
    have hfollows := hmore.segments_follow hrest
    simpa using moreSegments_more (ihsegment (text' ++ rest) hfollows) (ihmore rest hrest)
  | path hsegment hmore ihsegment ihmore =>
    rename_i text text'
    intro rest hrest
    have hfollows := hmore.segments_follow hrest
    simpa using reads_path (ihsegment (text' ++ rest) hfollows) (ihmore rest hrest)
  | type byRef hpath ih =>
    intro rest hrest
    have hstart := (hpath.path_start.append rest).not_ampersand
    simpa using reads_type byRef hstart (ih rest hrest)
  | lifetime args byRef name =>
    intro rest _
    simpa using reads_lifetime args byRef name rest
  | param args byRef hword =>
    intro rest hrest
    simpa using reads_param args byRef hword hrest
  | concrete args byRef hpath hlonger ih =>
    intro rest hrest
    have hstart := hpath.path_start.append rest
    have hplaceholder := hpath.not_placeholder hlonger rest
    simpa using
      reads_concrete args byRef hstart.not_ampersand hstart.lifetime?_eq hplaceholder (ih rest hrest)
  | lastArgument hargument ih =>
    exact fun opened rest => reads_lastArgument (ih (.greater :: rest) rfl)
  | moreArguments hargument hmore ihargument ihmore =>
    rename_i text text'
    intro opened rest
    have hread := ihargument (.comma :: text' ++ .greater :: rest) rfl
    simpa using reads_moreArguments hread (ihmore opened rest)
  | generics hargs ih =>
    obtain ⟨first, inner, rfl, hfirst⟩ := hargs.arguments_open
    refine ⟨first, inner ++ [.greater], rfl, hfirst, ?_⟩
    intro opened rest
    simpa using ih opened rest

/-! ## Declarations -/

theorem reads_asClause {opened : Nat} {input rest last : List Lexeme} {type : TypeRef}
    {implementedTrait : List Segment} (htype : Reads typeRef input type (.asWord :: rest))
    (htrait : Reads path rest implementedTrait (.greater :: last)) :
    Reads (qualifiedHead opened) input ⟨[], some ⟨implementedTrait, type⟩⟩ last := by
  obtain ⟨_, htype⟩ := htype.ok
  obtain ⟨_, htrait⟩ := htrait.ok
  unfold Reads qualifiedHead
  simp only [htype, htrait, close]
  exact ⟨_, rfl, rfl, rfl⟩

theorem reads_forClause {opened : Nat} {input rest last : List Lexeme} {type : TypeRef}
    {implementedTrait : List Segment}
    (htrait : Reads typeRef input ⟨false, implementedTrait⟩ (.forWord :: rest))
    (htype : Reads typeRef rest type (.greater :: last)) :
    Reads (qualifiedHead opened) input ⟨[], some ⟨implementedTrait, type⟩⟩ last := by
  obtain ⟨_, htrait⟩ := htrait.ok
  obtain ⟨_, htype⟩ := htype.ok
  unfold Reads qualifiedHead
  simp only [htrait, htype, traitPath, close, Bool.false_eq_true, if_false]
  exact ⟨_, rfl, rfl, rfl⟩

theorem reads_bracketed {opened : Nat} {input last : List Lexeme} {segments : List Segment}
    (h : Reads typeRef input ⟨false, segments⟩ (.greater :: last)) :
    Reads (qualifiedHead opened) input ⟨segments, none⟩ last := by
  obtain ⟨_, hread⟩ := h.ok
  unfold Reads qualifiedHead
  simp only [hread, close, Bool.false_eq_true, if_false]
  exact ⟨_, rfl, rfl, rfl⟩

theorem reads_qualified {input rest : List Lexeme} {start : Declaration} (hopens : OpensPlain input)
    (h : ∀ opened, Reads (qualifiedHead opened) input start rest) :
    Reads head (.less :: input) start rest := by
  obtain ⟨first, inner, rfl, hfirst⟩ := hopens
  obtain ⟨_, hread⟩ := (h ((first :: inner).length + 1)).ok
  unfold Reads
  rw [head]
  · simp only [hread]
    exact ⟨_, rfl, rfl, rfl⟩
  · rintro inner' ⟨⟩
    exact hfirst rfl

theorem reads_plain {input rest : List Lexeme} {segments : List Segment} (hstart : StartsPath input)
    (h : Reads (segment []) input segments rest) : Reads head input ⟨segments, none⟩ rest := by
  have hplain : head input = plainHead input := by
    cases hstart <;> rfl
  obtain ⟨_, hread⟩ := h.ok
  unfold Reads
  simp only [hplain, plainHead, hread]
  exact ⟨_, rfl, rfl, rfl⟩

theorem DerivesHead.isRead {start : Declaration} {text rest : List Lexeme}
    (h : DerivesHead start text) (hrest : rest.head? ≠ some .less) :
    Reads head (text ++ rest) start rest := by
  cases h with
  | asClause htype htrait =>
    rename_i implementedTrait type text text'
    have htype' := htype.isRead (.asWord :: text' ++ .greater :: rest) rfl
    have htrait' := htrait.isRead (.greater :: rest) rfl
    simpa using reads_qualified (htype.type_opens.append _) fun opened =>
      reads_asClause htype' htrait'
  | forClause htrait htype =>
    rename_i implementedTrait type text text'
    have htrait' := reads_asType htrait (htrait.isRead (.forWord :: text' ++ .greater :: rest) rfl)
    have htype' := htype.isRead (.greater :: rest) rfl
    simpa using reads_qualified (htrait.path_start.opensPlain.append _) fun opened =>
      reads_forClause htrait' htype'
  | bracketed hpath =>
    have hpath' := reads_asType hpath (hpath.isRead (.greater :: rest) rfl)
    simpa using reads_qualified (hpath.path_start.opensPlain.append _) fun opened =>
      reads_bracketed hpath'
  | plain hsegment hstart =>
    exact reads_plain (hsegment.segment_start.append rest) (hsegment.isRead rest hrest)

theorem declaration_complete {d : Declaration} {input : List Lexeme}
    (h : DerivesDeclaration d input) : declaration input = .ok d := by
  cases h with
  | mk hhead hmore =>
    rename_i start segments text text'
    have hfollows : text'.head? ≠ some .less := by
      simpa using hmore.segments_follow (show continuesPath [] = false from rfl)
    obtain ⟨_, hstart⟩ := (hhead.isRead hfollows).ok
    have hmore' : ReadsMore start.segments text' segments [] := by
      simpa using hmore.isRead [] rfl
    obtain ⟨_, hmore'⟩ := hmore'
    unfold declaration
    simp only [hstart, hmore']

/-! ## Names -/

theorem derives_of_parse {name : String} {d : Declaration} (h : parse name = .ok d) :
    ∃ ts, tokens name.toList = .ok ts ∧ DerivesDeclaration d (ts.map (·.lexeme)) := by
  unfold parse at h
  split at h
  · cases h
  · next ts hts =>
    split at h
    · cases h
    · next hd =>
      cases h
      exact ⟨ts, hts, declaration_sound hd⟩

theorem parse_of_derives {name : String} {d : Declaration} {ts : List Token}
    (hts : tokens name.toList = .ok ts) (hd : DerivesDeclaration d (ts.map (·.lexeme))) :
    parse name = .ok d := by
  unfold parse
  simp only [hts, declaration_complete hd]

/-- The parser accepts the names that the grammar derives, with the declarations it derives. -/
theorem parse_iff_derives (name : String) (d : Declaration) :
    parse name = .ok d ↔
      ∃ ts, tokens name.toList = .ok ts ∧ DerivesDeclaration d (ts.map (·.lexeme)) := by
  constructor
  · exact derives_of_parse
  · rintro ⟨ts, hts, hd⟩
    exact parse_of_derives hts hd

end CrateTrace.Name
