import CrateTrace.Name.Parser

/-!
# The grammar of symbol names, as derivations

Which lexemes stand for which segments, types and declarations, without any order of reading. A
bare generic list changes the segment before it, so a segment is derived as a step from the
segments before it to those with it. Generic arguments are steps of the same kind.
-/

namespace CrateTrace.Name

/-- What some lexemes of a name may stand for. -/
inductive Phrase where
  | segment (before after : List Segment)
  /-- Segments, each behind a `::`. -/
  | segments (before after : List Segment)
  | path (segments : List Segment)
  | type (type : TypeRef)
  | argument (before after : Generics)
  /-- Arguments with commas between them. -/
  | arguments (before after : Generics)
  | generics (args : Generics)

def refMark (byRef : Bool) : List Lexeme := if byRef then [.ampersand] else []

inductive Derives : Phrase → List Lexeme → Prop where
  | name (before : List Segment) (word : String) :
      Derives (.segment before (before ++ [⟨.name word, none⟩])) [.word word]
  | genericName (before : List Segment) (word : String) {args : Generics} {text : List Lexeme}
      (hargs : Derives (.generics args) text) :
      Derives (.segment before (before ++ [⟨.name word, some args⟩])) (.word word :: text)
  | closure (before : List Segment) (index : Option UInt32) :
      Derives (.segment before (before ++ [⟨.closure index, none⟩])) [.closure index]
  | inherentImpl (before : List Segment) {type : TypeRef} {text : List Lexeme}
      (htype : Derives (.type type) text) :
      Derives (.segment before (before ++ [⟨.inherentImpl type, none⟩]))
        (.less :: .implWord :: text ++ [.greater])
  | traitImpl (before : List Segment) {implementedTrait : List Segment} {type : TypeRef}
      {text text' : List Lexeme} (htrait : Derives (.path implementedTrait) text)
      (htype : Derives (.type type) text') :
      Derives (.segment before (before ++ [⟨.traitImpl ⟨implementedTrait, type⟩, none⟩]))
        (.less :: .implWord :: text ++ .forWord :: text' ++ [.greater])
  /-- The segment before takes the arguments, whatever its kind, if it has none. -/
  | turbofish (before : List Segment) (kind : SegmentKind) {args : Generics} {text : List Lexeme}
      (hargs : Derives (.generics args) text) :
      Derives (.segment (before ++ [⟨kind, none⟩]) (before ++ [⟨kind, some args⟩])) text
  | noMore (before : List Segment) : Derives (.segments before before) []
  | more {before between after : List Segment} {text text' : List Lexeme}
      (hsegment : Derives (.segment before between) text)
      (hmore : Derives (.segments between after) text') :
      Derives (.segments before after) (.pathSeparator :: text ++ text')
  | path {first segments : List Segment} {text text' : List Lexeme}
      (hsegment : Derives (.segment [] first) text)
      (hmore : Derives (.segments first segments) text') :
      Derives (.path segments) (text ++ text')
  | type (byRef : Bool) {segments : List Segment} {text : List Lexeme}
      (hpath : Derives (.path segments) text) :
      Derives (.type ⟨byRef, segments⟩) (refMark byRef ++ text)
  | lifetime (args : Generics) (byRef : Bool) (name : Char) :
      Derives (.argument args (args.addLifetime ⟨name, byRef⟩))
        (refMark byRef ++ [.lifetime name])
  | param (args : Generics) (byRef : Bool) {word : String} (hword : isPlaceholder word = true) :
      Derives (.argument args (args.addType (.param word byRef))) (refMark byRef ++ [.word word])
  /-- A placeholder that a `::` or a `<` follows is a path; one that stands alone is not. -/
  | concrete (args : Generics) (byRef : Bool) {segments : List Segment} {text : List Lexeme}
      (hpath : Derives (.path segments) text)
      (hlonger : ∀ word, isPlaceholder word = true → text ≠ [.word word]) :
      Derives (.argument args (args.addType (.concrete ⟨byRef, segments⟩))) (refMark byRef ++ text)
  | lastArgument {before after : Generics} {text : List Lexeme}
      (hargument : Derives (.argument before after) text) :
      Derives (.arguments before after) text
  | moreArguments {before between after : Generics} {text text' : List Lexeme}
      (hargument : Derives (.argument before between) text)
      (hmore : Derives (.arguments between after) text') :
      Derives (.arguments before after) (text ++ .comma :: text')
  | generics {args : Generics} {text : List Lexeme}
      (hargs : Derives (.arguments ⟨[], []⟩ args) text) :
      Derives (.generics args) (.less :: text ++ [.greater])

/-- The lexemes in front of a declaration's first `::`. -/
inductive DerivesHead : Declaration → List Lexeme → Prop where
  | asClause {implementedTrait : List Segment} {type : TypeRef} {text text' : List Lexeme}
      (htype : Derives (.type type) text) (htrait : Derives (.path implementedTrait) text') :
      DerivesHead ⟨[], some ⟨implementedTrait, type⟩⟩
        (.less :: text ++ .asWord :: text' ++ [.greater])
  | forClause {implementedTrait : List Segment} {type : TypeRef} {text text' : List Lexeme}
      (htrait : Derives (.path implementedTrait) text) (htype : Derives (.type type) text') :
      DerivesHead ⟨[], some ⟨implementedTrait, type⟩⟩
        (.less :: text ++ .forWord :: text' ++ [.greater])
  | bracketed {segments : List Segment} {text : List Lexeme}
      (hpath : Derives (.path segments) text) :
      DerivesHead ⟨segments, none⟩ (.less :: text ++ [.greater])
  | plain {segments : List Segment} {text : List Lexeme}
      (hsegment : Derives (.segment [] segments) text)
      (hstart : text.head? = some .less → text[1]? = some .implWord) :
      DerivesHead ⟨segments, none⟩ text

inductive DerivesDeclaration : Declaration → List Lexeme → Prop where
  | mk {start : Declaration} {segments : List Segment} {text text' : List Lexeme}
      (hhead : DerivesHead start text) (hmore : Derives (.segments start.segments segments) text') :
      DerivesDeclaration { start with segments } (text ++ text')

/-! ## First lexemes -/

/-- What a path may start with. -/
inductive StartsPath : List Lexeme → Prop where
  | word (word : String) (text : List Lexeme) : StartsPath (.word word :: text)
  | closure (index : Option UInt32) (text : List Lexeme) : StartsPath (.closure index :: text)
  | impl (text : List Lexeme) : StartsPath (.less :: .implWord :: text)

theorem Derives.segment_start {segments : List Segment} {text : List Lexeme}
    (h : Derives (.segment [] segments) text) : StartsPath text := by
  generalize hbefore : ([] : List Segment) = before at h
  cases h with
  | name before word => exact .word word []
  | genericName before word hargs => exact .word word _
  | closure before index => exact .closure index []
  | inherentImpl before htype => exact .impl _
  | traitImpl before htrait htype => exact .impl _
  | turbofish before kind hargs => simp at hbefore

theorem StartsPath.append {text : List Lexeme} (h : StartsPath text) (text' : List Lexeme) :
    StartsPath (text ++ text') := by
  cases h with
  | word word text => exact .word word (text ++ text')
  | closure index text => exact .closure index (text ++ text')
  | impl text => exact .impl (text ++ text')

theorem Derives.path_start {segments : List Segment} {text : List Lexeme}
    (h : Derives (.path segments) text) : StartsPath text := by
  cases h with
  | path hsegment hmore => exact hsegment.segment_start.append _

/-- No turbofish stands in front, so a first `<` opens an `<impl …>`. -/
theorem StartsPath.implWord {text : List Lexeme} (h : StartsPath text)
    (hless : text.head? = some .less) : text[1]? = some .implWord := by
  cases h with
  | word word text => simp at hless
  | closure index text => simp at hless
  | impl text => rfl

theorem Derives.generics_start {args : Generics} {text : List Lexeme}
    (h : Derives (.generics args) text) : ∃ inner, text = .less :: inner := by
  cases h with
  | generics hargs => exact ⟨_, rfl⟩

/-- A word in front of a path is the whole path, or the path goes on with `::` or `<`. -/
theorem Derives.behind_word {segments : List Segment} {text more : List Lexeme} {word : String}
    (h : Derives (.path segments) text) (htext : text = .word word :: more) :
    more = [] ∨ continuesPath more = true := by
  cases h with
  | path hsegment hmore =>
    generalize ([] : List Segment) = before at hsegment
    cases hsegment with
    | name before word =>
      obtain ⟨rfl, rfl⟩ : _ ∧ _ := by simpa using htext
      cases hmore with
      | noMore => exact .inl rfl
      | more hsegment hmore => exact .inr rfl
    | genericName before word hargs =>
      obtain ⟨inner, rfl⟩ := hargs.generics_start
      obtain ⟨rfl, rfl⟩ : _ ∧ _ := by simpa using htext
      exact .inr rfl
    | closure before index => simp at htext
    | inherentImpl before htype => simp at htext
    | traitImpl before htrait htype => simp at htext
    | turbofish before kind hargs =>
      obtain ⟨inner, rfl⟩ := hargs.generics_start
      simp at htext

/-- Behind a `<` that opens no `<impl …>`. -/
def OpensPlain (text : List Lexeme) : Prop := ∃ first inner, text = first :: inner ∧ first ≠ .implWord

theorem StartsPath.opensPlain {text : List Lexeme} (h : StartsPath text) : OpensPlain text := by
  cases h <;> exact ⟨_, _, rfl, by simp⟩

theorem OpensPlain.refMark {text : List Lexeme} (h : OpensPlain text) (byRef : Bool) :
    OpensPlain (refMark byRef ++ text) := by
  cases byRef with
  | false => exact h
  | true => exact ⟨.ampersand, text, rfl, by simp⟩

theorem OpensPlain.append {text : List Lexeme} (h : OpensPlain text) (text' : List Lexeme) :
    OpensPlain (text ++ text') := by
  obtain ⟨first, inner, rfl, hfirst⟩ := h
  exact ⟨first, inner ++ text', rfl, hfirst⟩

theorem Derives.type_opens {type : TypeRef} {text : List Lexeme} (h : Derives (.type type) text) :
    OpensPlain text := by
  cases h with
  | type byRef hpath => exact hpath.path_start.opensPlain.refMark byRef

theorem Derives.argument_opens {before after : Generics} {text : List Lexeme}
    (h : Derives (.argument before after) text) : OpensPlain text := by
  cases h with
  | lifetime args byRef name => exact OpensPlain.refMark ⟨_, _, rfl, by simp⟩ byRef
  | param args byRef hword => exact OpensPlain.refMark ⟨_, _, rfl, by simp⟩ byRef
  | concrete args byRef hpath hlonger => exact hpath.path_start.opensPlain.refMark byRef

theorem Derives.arguments_open {before after : Generics} {text : List Lexeme}
    (h : Derives (.arguments before after) text) : OpensPlain text := by
  cases h with
  | lastArgument hargument => exact hargument.argument_opens
  | moreArguments hargument hmore => exact hargument.argument_opens.append _

end CrateTrace.Name
