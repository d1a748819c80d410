import CrateTrace.Name.Key
import CrateTrace.Proofs.Name.Completeness
import CrateTrace.Proofs.Name.Lexing

/-!
# Paths with their crate in front

A path may be written from its crate on or without the crate. Main statement: the crate may be put
in front of every path, and the key relative to the crate stays the same unless the path starts with
the crate's name itself.
-/

namespace CrateTrace.Name

/-! ## Segments behind others -/

theorem Derives.segment_behind {before after : List Segment} {text : List Lexeme}
    (h : Derives (.segment before after) text) (more : List Segment) :
    Derives (.segment (more ++ before) (more ++ after)) text := by
  cases h with
  | name before word =>
    rw [← List.append_assoc]
    exact .name (more ++ before) word
  | genericName before word hargs =>
    rw [← List.append_assoc]
    exact .genericName (more ++ before) word hargs
  | closure before index =>
    rw [← List.append_assoc]
    exact .closure (more ++ before) index
  | inherentImpl before htype =>
    rw [← List.append_assoc]
    exact .inherentImpl (more ++ before) htype
  | traitImpl before htrait htype =>
    rw [← List.append_assoc]
    exact .traitImpl (more ++ before) htrait htype
  | turbofish before kind hargs =>
    rw [← List.append_assoc, ← List.append_assoc]
    exact .turbofish (more ++ before) kind hargs

theorem Derives.segments_behind {before after : List Segment} {text : List Lexeme}
    (h : Derives (.segments before after) text) (more : List Segment) :
    Derives (.segments (more ++ before) (more ++ after)) text := by
  generalize hphrase : Phrase.segments before after = phrase at h
  induction h generalizing before after with
  | noMore =>
    cases hphrase
    exact .noMore _
  | more hsegment hmore _ ih =>
    cases hphrase
    exact .more (hsegment.segment_behind more) (ih rfl)
  | _ => cases hphrase

/-! ## Names without a type in front -/

/-- Whether some lexemes start with a type or a trait clause in angle brackets. -/
def opensQualified : List Lexeme → Bool
  | .less :: .implWord :: _ => false
  | .less :: _ => true
  | _ => false

/-- Whether a name starts with a type or a trait clause in angle brackets. -/
def startsQualified (name : String) : Bool :=
  match tokens name.toList with
  | .ok ts => opensQualified (ts.map (·.lexeme))
  | .error _ => false

theorem OpensPlain.opensQualified {text : List Lexeme} (h : OpensPlain text) (rest : List Lexeme) :
    opensQualified (.less :: text ++ rest) = true := by
  obtain ⟨first, inner, rfl, hfirst⟩ := h
  cases first <;> first | rfl | exact absurd rfl hfirst

/-- All of a declaration that starts otherwise may stand behind a `::`. -/
theorem DerivesDeclaration.behind {d : Declaration} {text : List Lexeme}
    (h : DerivesDeclaration d text) (hplain : opensQualified text = false) :
    d.traitClause = none ∧
      ∀ before, Derives (.segments before (before ++ d.segments)) (.pathSeparator :: text) := by
  cases h with
  | mk hhead hmore =>
    cases hhead with
    | asClause htype htrait =>
      rw [List.append_assoc, List.append_assoc, htype.type_opens.opensQualified] at hplain
      cases hplain
    | forClause htrait htype =>
      have hopens := htrait.path_start.opensPlain
      rw [List.append_assoc, List.append_assoc, hopens.opensQualified] at hplain
      cases hplain
    | bracketed hpath =>
      rw [List.append_assoc, hpath.path_start.opensPlain.opensQualified] at hplain
      cases hplain
    | plain hsegment hstart =>
      refine ⟨rfl, fun before => ?_⟩
      have hsegment' := hsegment.segment_behind before
      rw [List.append_nil] at hsegment'
      exact .more hsegment' (hmore.segments_behind before)

/-! ## Names with a crate in front -/

/-- The crate and the `::` are cut off first. -/
theorem tokens_behind_crate {crate path : String} {ts : List Token}
    (hcrate : (Lexeme.word crate).Lexical) (hpath : tokens path.toList = .ok ts) :
    ∃ ts', tokens (crate ++ "::" ++ path).toList = .ok ts' ∧
      ts'.map (·.lexeme) = .word crate :: .pathSeparator :: ts.map (·.lexeme) := by
  obtain ⟨ts', hts', hlexemes⟩ :=
    tokensFrom_shift hpath (0 + crate.toList.length + "::".toList.length)
  have hseparator : CutsAs .pathSeparator "::".toList path.toList :=
    cuts_spelling trivial fun hsticks => by cases hsticks
  have hword : CutsAs (.word crate) crate.toList ("::".toList ++ path.toList) :=
    cuts_spelling hcrate fun _ => by simp [isWordPart]
  have hcut := tokensFrom_cut hword (tokensFrom_cut hseparator hts')
  rw [String.toList_append, String.toList_append, List.append_assoc]
  exact ⟨_, hcut, by simp [hlexemes]⟩

theorem parse_behind_crate {crate path : String} {d : Declaration}
    (hcrate : (Lexeme.word crate).Lexical) (hpath : parse path = .ok d)
    (hplain : startsQualified path = false) :
    d.traitClause = none ∧
      parse (crate ++ "::" ++ path) = .ok ⟨⟨.name crate, none⟩ :: d.segments, none⟩ := by
  obtain ⟨ts, hts, hderives⟩ := derives_of_parse hpath
  simp only [startsQualified, hts] at hplain
  obtain ⟨hclause, hbehind⟩ := hderives.behind hplain
  obtain ⟨ts', hts', hlexemes⟩ := tokens_behind_crate hcrate hts
  refine ⟨hclause, parse_of_derives hts' ?_⟩
  have hhead : DerivesHead ⟨[⟨.name crate, none⟩], none⟩ [.word crate] :=
    .plain (.name [] crate) (by simp)
  rw [hlexemes]
  exact .mk hhead (hbehind _)

/-! ## Keys -/

theorem structuralKey_behind_crate (crate : String) (segments : List Segment) :
    (Declaration.mk (⟨.name crate, none⟩ :: segments) none).structuralKey (some crate) =
      ⟨Segment.plainNames segments, none⟩ := by
  simp [Declaration.structuralKey, Segment.name?, Segment.plainNames]

theorem structuralKey_plain (crate : String) (segments : List Segment) :
    (Declaration.mk segments none).structuralKey (some crate) =
      ⟨(Segment.plainNames segments).drop
        (if segments.head?.bind Segment.name? = some crate then 1 else 0), none⟩ := by
  simp [Declaration.structuralKey]

/-- A path means the same with its crate in front, unless it starts with the name of the crate: that
is taken for the crate's already. -/
theorem structuralKeyOf_behind_crate {crate path : String} {d : Declaration}
    (hcrate : (Lexeme.word crate).Lexical) (hpath : parse path = .ok d)
    (hplain : startsQualified path = false) :
    (∃ d', parse (crate ++ "::" ++ path) = .ok d') ∧
      (structuralKeyOf (crate ++ "::" ++ path) crate = structuralKeyOf path crate ↔
        d.segments.head?.bind Segment.name? ≠ some crate) := by
  obtain ⟨hclause, hparse⟩ := parse_behind_crate hcrate hpath hplain
  refine ⟨⟨_, hparse⟩, ?_⟩
  obtain ⟨segments, clause⟩ := d
  obtain rfl : clause = none := hclause
  have hlong : structuralKeyOf (crate ++ "::" ++ path) crate =
      .ok ⟨Segment.plainNames segments, none⟩ := by
    rw [structuralKeyOf, hparse, Except.map, structuralKey_behind_crate]
  have hshort : structuralKeyOf path crate = .ok ⟨(Segment.plainNames segments).drop
      (if segments.head?.bind Segment.name? = some crate then 1 else 0), none⟩ := by
    rw [structuralKeyOf, hpath, Except.map, structuralKey_plain]
  rw [hlong, hshort, Except.ok.injEq, StructuralKey.mk.injEq, and_iff_left rfl]
  split
  case isFalse hother => simpa using hother
  case isTrue hsame =>
    cases segments with
    | nil => cases hsame
    | cons first more =>
      refine iff_of_false (fun hdrop => ?_) (not_not.2 hsame)
      have hlength := congrArg List.length hdrop
      simp [Segment.plainNames] at hlength

/-- `Conn::<u8>::<impl Read for Conn>::{{closure}}` -/
def readClosure : Declaration :=
  ⟨[⟨.name "Conn", some ⟨[.concrete ⟨false, [⟨.name "u8", none⟩]⟩], []⟩⟩,
    ⟨.traitImpl ⟨[⟨.name "Read", none⟩], ⟨false, [⟨.name "Conn", none⟩]⟩⟩, none⟩,
    ⟨.closure none, none⟩], none⟩

theorem structuralKeyOf_readClosure :
    structuralKeyOf "net::Conn::<u8>::<impl Read for Conn>::\x7b\x7bclosure\x7d\x7d" "net" =
      structuralKeyOf "Conn::<u8>::<impl Read for Conn>::\x7b\x7bclosure\x7d\x7d" "net" := by
  have hparse : parse "Conn::<u8>::<impl Read for Conn>::\x7b\x7bclosure\x7d\x7d" =
      .ok readClosure := by decide +kernel
  have hnet : (Lexeme.word "net").Lexical := ⟨by decide +kernel, by simp⟩
  have hplain : startsQualified "Conn::<u8>::<impl Read for Conn>::\x7b\x7bclosure\x7d\x7d" =
      false := by decide +kernel
  exact (structuralKeyOf_behind_crate hnet hparse hplain).2.2 (by decide +kernel)

/-- A module with its crate's name is taken for the crate. -/
theorem structuralKeyOf_app_app :
    ¬ ∀ (crate path : String) (d : Declaration), (Lexeme.word crate).Lexical →
      parse path = .ok d → d.traitClause = none → startsQualified path = false →
      structuralKeyOf (crate ++ "::" ++ path) crate = structuralKeyOf path crate := by
  intro hall
  have happ : (Lexeme.word "app").Lexical := ⟨by decide +kernel, by simp⟩
  have hparse : parse "app::run" = .ok ⟨[⟨.name "app", none⟩, ⟨.name "run", none⟩], none⟩ := by
    decide +kernel
  have hkeys := hall "app" "app::run" _ happ hparse rfl (by decide +kernel)
  revert hkeys
  decide +kernel

end CrateTrace.Name
