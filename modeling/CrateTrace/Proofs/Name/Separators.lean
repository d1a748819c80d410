import CrateTrace.Proofs.Name.Completeness
import CrateTrace.Proofs.Name.Tiling
import CrateTrace.Proofs.Name.Turbofish

/-!
# A `::` in front of generic arguments

Between a word and the `<` behind it a `::` may stand as well. The arguments are then a segment of
their own in the text, which is put to the word afterwards.
-/

namespace CrateTrace.Name

/-! ## Inserting a separator -/

/-- The second text has one `::` more, between a word and a `<`. -/
inductive Inserts : List Lexeme → List Lexeme → Prop where
  | here (word : String) (behind : List Lexeme) :
      Inserts (.word word :: .less :: behind) (.word word :: .pathSeparator :: .less :: behind)
  | later (l : Lexeme) {text text' : List Lexeme} (h : Inserts text text') :
      Inserts (l :: text) (l :: text')

theorem inserts_behind (front : List Lexeme) (word : String) (behind : List Lexeme) :
    Inserts (front ++ .word word :: .less :: behind)
      (front ++ .word word :: .pathSeparator :: .less :: behind) := by
  induction front with
  | nil => exact .here word behind
  | cons l front ih => exact .later l ih

theorem not_inserts_nil {text : List Lexeme} : ¬ Inserts [] text := nofun

theorem not_inserts_singleton {l : Lexeme} {text : List Lexeme} : ¬ Inserts [l] text := by
  rintro (_ | ⟨_, _ | _⟩)

theorem Inserts.cons {l : Lexeme} {text all : List Lexeme} (hl : ∀ word, l ≠ .word word)
    (h : Inserts (l :: text) all) : ∃ text', Inserts text text' ∧ all = l :: text' := by
  cases h with
  | here word behind => exact absurd rfl (hl word)
  | later l h => exact ⟨_, h, rfl⟩

/-- If the second text does not start with `<`, the separator stands inside one of the two. -/
theorem Inserts.append {text text' all : List Lexeme} (hstart : text'.head? ≠ some .less)
    (h : Inserts (text ++ text') all) :
    (∃ new, Inserts text new ∧ all = new ++ text') ∨
      ∃ new, Inserts text' new ∧ all = text ++ new := by
  induction text generalizing all with
  | nil => exact .inr ⟨all, h, rfl⟩
  | cons l text ih =>
    generalize hinput : l :: text ++ text' = input at h
    cases h with
    | here word behind =>
      obtain ⟨rfl, hbehind⟩ : l = .word word ∧ text ++ text' = .less :: behind := by
        simpa using hinput
      cases text with
      | nil =>
        obtain rfl : text' = .less :: behind := hbehind
        simp at hstart
      | cons first text =>
        obtain ⟨rfl, rfl⟩ : first = .less ∧ text ++ text' = behind := by simpa using hbehind
        exact .inl ⟨_, .here word text, rfl⟩
    | @later first _ all h =>
      obtain ⟨rfl, rfl⟩ : l = first ∧ text ++ text' = _ := by simpa using hinput
      obtain ⟨new, hnew, rfl⟩ | ⟨new, hnew, rfl⟩ := ih h
      · exact .inl ⟨_, .later l hnew, rfl⟩
      · exact .inr ⟨new, hnew, rfl⟩

theorem Inserts.bracket {text all : List Lexeme} (h : Inserts (.less :: text ++ [.greater]) all) :
    ∃ new, Inserts text new ∧ all = .less :: new ++ [.greater] := by
  obtain ⟨_, hopen, rfl⟩ | ⟨_, hclose, rfl⟩ := h.append (by simp)
  · obtain ⟨new, hnew, rfl⟩ := hopen.cons (by simp)
    exact ⟨new, hnew, rfl⟩
  · exact absurd hclose not_inserts_singleton

/-- Two texts in brackets, with a keyword between them. -/
theorem Inserts.clause {mark : Lexeme} {first second all : List Lexeme}
    (hmark : ∀ word, mark ≠ .word word) (hless : mark ≠ .less)
    (h : Inserts (.less :: first ++ mark :: second ++ [.greater]) all) :
    (∃ new, Inserts first new ∧ all = .less :: new ++ mark :: second ++ [.greater]) ∨
      ∃ new, Inserts second new ∧ all = .less :: first ++ mark :: new ++ [.greater] := by
  obtain ⟨_, hinside, rfl⟩ := bracket h
  obtain ⟨new, hnew, rfl⟩ | ⟨_, hbehind, rfl⟩ := hinside.append (by simpa using hless)
  · exact .inl ⟨new, hnew, rfl⟩
  · obtain ⟨new, hnew, rfl⟩ := hbehind.cons hmark
    exact .inr ⟨new, hnew, rfl⟩

theorem Inserts.ref {byRef : Bool} {text all : List Lexeme}
    (h : Inserts (refMark byRef ++ text) all) :
    ∃ new, Inserts text new ∧ all = refMark byRef ++ new := by
  cases byRef with
  | false => exact ⟨all, h, rfl⟩
  | true => exact h.cons (by simp)

/-- At least three lexemes are there afterwards. -/
theorem Inserts.ne_singleton {text all : List Lexeme} (h : Inserts text all) (l : Lexeme) :
    all ≠ [l] := by
  cases h with
  | here word behind => simp
  | later l h => cases h <;> simp

/-! ## Phrases -/

theorem Derives.segments_append {before between after : List Segment} {text text' : List Lexeme}
    (h : Derives (.segments before between) text) (h' : Derives (.segments between after) text') :
    Derives (.segments before after) (text ++ text') := by
  generalize hphrase : Phrase.segments before between = phrase at h
  induction h generalizing before with
  | noMore =>
    cases hphrase
    exact h'
  | more hsegment hmore _ ih =>
    cases hphrase
    simpa using Derives.more hsegment (ih rfl)
  | _ => cases hphrase

/-- A segment may become two in the text. Other phrases stay what they are. -/
def Respelled (phrase : Phrase) (text : List Lexeme) : Prop :=
  match phrase with
  | .segment before after => ∃ between first more, text = first ++ more ∧
      Derives (.segment before between) first ∧ Derives (.segments between after) more
  | phrase => Derives phrase text

theorem respelled_segment {before after : List Segment} {text : List Lexeme}
    (h : Derives (.segment before after) text) : Respelled (.segment before after) text :=
  ⟨after, text, [], by simp, h, .noMore after⟩

theorem Derives.insert {phrase : Phrase} {text all : List Lexeme} (h : Derives phrase text)
    (hall : Inserts text all) : Respelled phrase all := by
  induction h generalizing all with
  | name before word => exact absurd hall not_inserts_singleton
  | @genericName before word args text hargs ih =>
    generalize hinput : Lexeme.word word :: text = input at hall
    cases hall with
    | here word' behind =>
      obtain ⟨rfl, rfl⟩ : word = word' ∧ text = .less :: behind := by simpa using hinput
      have hmore := Derives.more (.turbofish before (.name word) hargs) (.noMore _)
      exact ⟨_, [.word word], _, by simp, .name before word, hmore⟩
    | later l hinside =>
      obtain ⟨rfl, rfl⟩ := List.cons.inj hinput
      exact respelled_segment (.genericName before word (ih hinside))
  | closure before index => exact absurd hall not_inserts_singleton
  | inherentImpl before htype ih =>
    obtain ⟨_, himpl, rfl⟩ := hall.bracket
    obtain ⟨new, hnew, rfl⟩ := himpl.cons (by simp)
    exact respelled_segment (.inherentImpl before (ih hnew))
  | traitImpl before htrait htype ihtrait ihtype =>
    obtain ⟨_, himpl, rfl⟩ | ⟨new, hnew, rfl⟩ := hall.clause (by simp) (by simp)
    · obtain ⟨new, hnew, rfl⟩ := himpl.cons (by simp)
      exact respelled_segment (.traitImpl before (ihtrait hnew) htype)
    · exact respelled_segment (.traitImpl before htrait (ihtype hnew))
  | turbofish before kind hargs ih => exact respelled_segment (.turbofish before kind (ih hall))
  | noMore before => exact absurd hall not_inserts_nil
  | more hsegment hmore ihsegment ihmore =>
    obtain ⟨new, hnew, rfl⟩ | ⟨new, hnew, rfl⟩ := hall.append hmore.segments_head
    · obtain ⟨new, hinside, rfl⟩ := hnew.cons (by simp)
      obtain ⟨between, first, more, rfl, hfirst, hmore'⟩ := ihsegment hinside
      have hjoined := Derives.more hfirst (hmore'.segments_append hmore)
      simpa [Respelled] using hjoined
    · exact .more hsegment (ihmore hnew)
  | path hsegment hmore ihsegment ihmore =>
    obtain ⟨new, hnew, rfl⟩ | ⟨new, hnew, rfl⟩ := hall.append hmore.segments_head
    · obtain ⟨between, first, more, rfl, hfirst, hmore'⟩ := ihsegment hnew
      have hjoined := Derives.path hfirst (hmore'.segments_append hmore)
      simpa [Respelled] using hjoined
    · exact .path hsegment (ihmore hnew)
  | type byRef hpath ih =>
    obtain ⟨new, hnew, rfl⟩ := hall.ref
    exact .type byRef (ih hnew)
  | lifetime args byRef name =>
    obtain ⟨new, hnew, rfl⟩ := hall.ref
    exact absurd hnew not_inserts_singleton
  | param args byRef hword =>
    obtain ⟨new, hnew, rfl⟩ := hall.ref
    exact absurd hnew not_inserts_singleton
  | concrete args byRef hpath hlonger ih =>
    obtain ⟨new, hnew, rfl⟩ := hall.ref
    exact .concrete args byRef (ih hnew) fun word _ => hnew.ne_singleton _
  | lastArgument hargument ih => exact .lastArgument (ih hall)
  | moreArguments hargument hmore ihargument ihmore =>
    obtain ⟨new, hnew, rfl⟩ | ⟨_, hcomma, rfl⟩ := hall.append (by simp)
    · exact .moreArguments (ihargument hnew) hmore
    · obtain ⟨new, hnew, rfl⟩ := hcomma.cons (by simp)
      exact .moreArguments hargument (ihmore hnew)
  | generics hargs ih =>
    obtain ⟨new, hnew, rfl⟩ := hall.bracket
    exact .generics (ih hnew)

/-- The head, too, may leave its last arguments to the segments behind it. -/
theorem DerivesHead.insert {start : Declaration} {text all : List Lexeme}
    (h : DerivesHead start text) (hall : Inserts text all) :
    ∃ segments head more, all = head ++ more ∧ DerivesHead { start with segments } head ∧
      Derives (.segments segments start.segments) more := by
  cases h with
  | asClause htype htrait =>
    obtain ⟨new, hnew, rfl⟩ | ⟨new, hnew, rfl⟩ := hall.clause (by simp) (by simp)
    · exact ⟨[], _, [], by simp, .asClause (htype.insert hnew) htrait, .noMore []⟩
    · exact ⟨[], _, [], by simp, .asClause htype (htrait.insert hnew), .noMore []⟩
  | forClause htrait htype =>
    obtain ⟨new, hnew, rfl⟩ | ⟨new, hnew, rfl⟩ := hall.clause (by simp) (by simp)
    · exact ⟨[], _, [], by simp, .forClause (htrait.insert hnew) htype, .noMore []⟩
    · exact ⟨[], _, [], by simp, .forClause htrait (htype.insert hnew), .noMore []⟩
  | bracketed hpath =>
    obtain ⟨new, hnew, rfl⟩ := hall.bracket
    exact ⟨_, _, [], by simp, .bracketed (hpath.insert hnew), .noMore _⟩
  | plain hsegment hstart =>
    obtain ⟨between, first, more, rfl, hfirst, hmore⟩ := hsegment.insert hall
    exact ⟨between, first, more, rfl, .plain hfirst hfirst.segment_start.implWord, hmore⟩

theorem DerivesDeclaration.insert {d : Declaration} {text all : List Lexeme}
    (h : DerivesDeclaration d text) (hall : Inserts text all) : DerivesDeclaration d all := by
  cases h with
  | mk hhead hmore =>
    obtain ⟨new, hnew, rfl⟩ | ⟨new, hnew, rfl⟩ := hall.append hmore.segments_head
    · obtain ⟨segments, head, more, rfl, hhead', hmore'⟩ := hhead.insert hnew
      have hjoined := DerivesDeclaration.mk hhead' (hmore'.segments_append hmore)
      simpa using hjoined
    · exact .mk hhead (hmore.insert hnew)

/-! ## Names -/

/-- The places between two tokens divide a name into two that are cut as before. -/
theorem cutInto_between {a b : String} {before behind : List Token} {w l : Token}
    (hts : tokens (a ++ b).toList = .ok (before ++ w :: l :: behind))
    (hstop : w.stop ≤ a.utf8ByteSize) (hstart : a.utf8ByteSize ≤ l.start) :
    CutInto a.toList ((before ++ [w]).map (·.lexeme)) ∧
      CutInto b.toList ((l :: behind).map (·.lexeme)) := by
  have htiled := Tiled.of_tokensFrom hts
  have horder := htiled.pairwise
  rw [String.toList_append, List.append_cons] at htiled
  rw [List.append_cons, List.pairwise_append] at horder
  rw [← byteLength_toList] at hstop hstart
  have hbefore : ∀ t ∈ before ++ [w], t.stop ≤ 0 + byteLength a.toList := by
    intro t ht
    obtain ht | ht := List.mem_append.mp ht
    · have hw := (htiled.start_le w (by simp)).2
      have hordered := (List.pairwise_append.mp horder.1).2.2 t ht w (by simp)
      omega
    · obtain rfl := List.mem_singleton.mp ht
      omega
  have hbehind : ∀ t ∈ l :: behind, 0 + byteLength a.toList ≤ t.start := by
    intro t ht
    obtain rfl | ht := List.mem_cons.mp ht
    · omega
    · have hl := (htiled.start_le l (by simp)).2
      have hordered := (List.pairwise_cons.mp horder.2.1).1 t ht
      omega
  obtain ⟨ha, hb⟩ := htiled.split hbefore hbehind
  exact ⟨cutInto_of_tokensFrom (tokensFrom_iff.mpr ha),
    cutInto_of_tokensFrom (tokensFrom_iff.mpr hb)⟩

/-- Between a word and a `<` of a name, wherever the two are, a `::` makes no difference. -/
theorem parse_insert_separator {a b word : String} {d : Declaration} {before behind : List Token}
    {w l : Token} (hparse : parse (a ++ b) = .ok d)
    (hts : tokens (a ++ b).toList = .ok (before ++ w :: l :: behind))
    (hw : w.lexeme = .word word) (hl : l.lexeme = .less) (hstop : w.stop ≤ a.utf8ByteSize)
    (hstart : a.utf8ByteSize ≤ l.start) : parse (a ++ "::" ++ b) = .ok d := by
  obtain ⟨ts, hts', hd⟩ := derives_of_parse hparse
  obtain rfl := Except.ok.inj (hts.symm.trans hts')
  obtain ⟨ha, hb⟩ := cutInto_between hts hstop hstart
  have hseparator : CutsAs .pathSeparator [':', ':'] b.toList := ⟨':', [':'], rfl, rfl, rfl⟩
  have hinput : (a ++ "::" ++ b).toList = a.toList ++ ([':', ':'] ++ b.toList) := by simp
  have hinserts := inserts_behind (before.map (·.lexeme)) word (behind.map (·.lexeme))
  have hnew := hd.insert (by simpa [hw, hl] using hinserts)
  obtain ⟨ts, hts, hlexemes⟩ : CutInto (a ++ "::" ++ b).toList _ := by
    rw [hinput, cutInto_append_iff ha (by simp; decide)]
    exact ⟨_, (cutInto_text_iff hseparator _).mpr ⟨_, hb, rfl⟩, rfl⟩
  refine parse_of_derives hts ?_
  rw [hlexemes]
  simpa [hw, hl] using hnew

/-- `f<Vec<u8>>` -/
def genericInGeneric : Declaration :=
  let u8 : TypeRef := ⟨false, [⟨.name "u8", none⟩]⟩
  let vec : TypeRef := ⟨false, [⟨.name "Vec", some ⟨[.concrete u8], []⟩⟩]⟩
  ⟨[⟨.name "f", some ⟨[.concrete vec], []⟩⟩], none⟩

/-- The `::` may stand in front of a blank, and inside other arguments. -/
theorem parse_insert_separator_nested :
    parse "f<Vec <u8>>" = .ok genericInGeneric ∧ parse "f<Vec:: <u8>>" = .ok genericInGeneric := by
  have hparse : parse ("f<Vec" ++ " <u8>>") = .ok genericInGeneric := by decide +kernel
  have hts : tokens ("f<Vec" ++ " <u8>>").toList =
      .ok ([⟨.word "f", 0, 1⟩, ⟨.less, 1, 2⟩] ++ ⟨.word "Vec", 2, 5⟩ :: ⟨.less, 6, 7⟩ ::
        [⟨.word "u8", 7, 9⟩, ⟨.greater, 9, 10⟩, ⟨.greater, 10, 11⟩]) := by
    decide +kernel
  exact ⟨hparse, parse_insert_separator hparse hts rfl rfl (by decide) (by decide)⟩

end CrateTrace.Name
