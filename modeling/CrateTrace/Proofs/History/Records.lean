import CrateTrace.Proofs.History.Ownership
import CrateTrace.Proofs.Matching.Reading

/-!
# What rows say

Every row was written from a record, and what it says of a function still follows from the full name
of the function. So a pass can use each source function, and fails only on names that were known to be
unparsable.
-/

namespace CrateTrace

open Ingest Mangling Matching Name Program

variable {demangler : Demangler}

namespace Store

structure SourceColumns.Sound (c : SourceColumns) : Prop where
  record : ∃ f, c.toFunctionColumns = .ofFunction f ∧ f.status = .ok ∧ ∃ d, Declares f d
  signature : ∀ text, c.signature = some text → Signature.Pattern.isValid text = true

structure BinaryColumns.Sound (c : BinaryColumns) : Prop where
  record : ∃ f, c.toFunctionColumns = .ofFunction f ∧
    (f.status = .ok → (∃ d, Declares f d ∧ d.crateName = some f.crate) ∧
      Signature.Pattern.isValid c.signature = true)

structure Sound (s : Store) : Prop where
  sources : s.sources.All SourceColumns.Sound
  functions : s.functions.All BinaryColumns.Sound

theorem sound_empty : empty.Sound where
  sources := by simp [Table.All, empty]
  functions := by simp [Table.All, empty]

/-! ## New rows -/

theorem sound_ofRecord {unit : CrateVersion} {entry : Entry} {f : SourceFunction}
    (h : RecordOf unit entry f) (crateId : RowId) : (SourceColumns.ofFunction crateId f).Sound where
  record := ⟨f.toFunction, rfl, h.status, h.declared⟩
  signature := fun text htext => ((h.signature text).1 htext).2

theorem sound_putSources {s : Store} (h : s.Sound) (crateId : RowId) (unit : CrateVersion)
    (entries : List Entry) : (putSources s crateId (sourcesOfEntries unit entries)).Sound where
  sources := by
    refine h.sources.insertAll fun c hc => ?_
    obtain ⟨f, hf, rfl⟩ := List.mem_map.1 hc
    obtain ⟨entry, hentry⟩ := recordOf_of_mem hf
    exact sound_ofRecord hentry crateId
  functions := h.functions

theorem sound_putFunctions {s : Store} (h : s.Sound) (binaryId : RowId) (wants : String → Bool)
    (binary : String) (dump : Dump) :
    (putFunctions s binaryId (functionsOfDump demangler wants binary dump)).Sound where
  sources := h.sources
  functions := by
    refine h.functions.insertAll fun c hc => ?_
    obtain ⟨f, hf, rfl⟩ := List.mem_map.1 hc
    obtain ⟨⟨key, entry⟩, -, hentry⟩ := List.mem_filterMap.1 hf
    exact ⟨f.toFunction, rfl, fun hok =>
      have hsound := sound_functionOf hentry hok
      ⟨hsound.declared, hsound.signature⟩⟩

/-! ## Rows that change -/

theorem SourceColumns.Sound.mark {c : SourceColumns} (h : c.Sound) (matched : Bool) :
    (c.mark matched).Sound := ⟨h.record, h.signature⟩

theorem BinaryColumns.Sound.relink {c : BinaryColumns} (h : c.Sound) (target : Option RowId) :
    (c.relink target).Sound := ⟨h.record⟩

theorem sound_of_signed {c c' : SourceColumns} (h : Signed c c') (hc : c.Sound) : c'.Sound := by
  rcases h with rfl | ⟨signature, hvalid, rfl⟩
  · exact hc
  · refine ⟨hc.record, fun text htext => ?_⟩
    obtain rfl := Option.some.inj htext
    exact hvalid

/-! ## Readings -/

theorem SourceColumns.Sound.parses {c : SourceColumns} (h : c.Sound) :
    ∃ d, parse c.fullName = .ok d := by
  obtain ⟨f, hf, -, d, hparse, -, -⟩ := h.record
  rw [hf]
  exact ⟨d, hparse⟩

theorem SourceColumns.Sound.hasStatus {c : SourceColumns} (h : c.Sound) :
    c.hasStatus .ok = true := by
  obtain ⟨f, hf, hok, -⟩ := h.record
  rw [hf, FunctionColumns.hasStatus_ofFunction]
  exact decide_eq_true hok

theorem BinaryColumns.Sound.parses {c : BinaryColumns} (h : c.Sound) (hok : c.hasStatus .ok = true) :
    ∃ d, parse c.fullName = .ok d := by
  obtain ⟨f, hf, hdeclared⟩ := h.record
  rw [hf, FunctionColumns.hasStatus_ofFunction] at hok
  obtain ⟨⟨d, ⟨hparse, -, -⟩, -⟩, -⟩ := hdeclared (of_decide_eq_true hok)
  rw [hf]
  exact ⟨d, hparse⟩

theorem Row.isOk_mapM {α β : Type} {f : α → Except StoreError β} {r : Row α} {b : β}
    (h : f r.value = .ok b) : (Row.mapM f r).isOk = true := by
  unfold Row.mapM
  rw [h]
  rfl

theorem isOk_sourcesOf {rows : List (Row SourceColumns)} (h : ∀ r ∈ rows, r.value.Sound) :
    (sourcesOf rows).isOk = true := by
  unfold sourcesOf
  rw [isOk_mapM, List.all_eq_true]
  intro r hr
  obtain ⟨f, hf, -⟩ := (h r hr).record
  exact Row.isOk_mapM (SourceColumns.function_of_record hf)

theorem isOk_functionsOf {rows : List (Row BinaryColumns)} (h : ∀ r ∈ rows, r.value.Sound) :
    (functionsOf rows).isOk = true := by
  unfold functionsOf
  rw [isOk_mapM, List.all_eq_true]
  intro r hr
  obtain ⟨f, hf, -⟩ := (h r hr).record
  exact Row.isOk_mapM (BinaryColumns.function_of_record hf)

end Store

namespace History

open Store

theorem Effect.sound {s s' : Store} {call : Call} (effect : Effect demangler s call s')
    (h : s.Sound) : s'.Sound := by
  cases effect with
  | nothing => exact h
  | @unitAdded unit _ _ unknown =>
    have hadded : (s.addCrate unit).Sound := ⟨h.sources, h.functions⟩
    exact sound_putSources hadded _ _ _
  | @unitReplaced _ _ row known =>
    have hdeleted : ({ s with crates := s.crates.skip }.deleteSources row.id).Sound :=
      ⟨h.sources.filter _, h.functions.modify fun _ hc => hc.relink _⟩
    exact sound_putSources hdeleted _ _ _
  | @binaryAdded _ binary _ _ unknown =>
    have hadded : (s.addBinary binary).Sound := ⟨h.sources, h.functions⟩
    exact sound_putFunctions hadded _ _ _ _
  | @binaryReplaced _ binary _ row known =>
    have hdeleted : (({ s with binaries := s.binaries.skip }.deleteFunctions row.id).setHash row.id
        binary.hash).Sound :=
      ⟨h.sources.modify fun _ hc => hc.mark _, h.functions.filter _⟩
    exact sound_putFunctions hdeleted _ _ _ _
  | signed signs => exact ⟨h.sources.modify fun r hc => sound_of_signed (signs r) hc, h.functions⟩
  | linked committed =>
    exact ⟨h.sources.modify fun _ hc => hc.mark _, h.functions.modify fun _ hc => hc.relink _⟩
  | noted run => exact ⟨h.sources, h.functions⟩

theorem sound_after (calls : List Call) : (after demangler calls).Sound :=
  after_of_effect sound_empty Effect.sound calls

end History

/-! ## Passes over sound rows -/

namespace Matching

open Store

variable {s : Store}

/-- Each source function of a crate version is a candidate. -/
theorem ids_unitCandidates (h : s.Sound) (unit : CrateVersion) :
    (unitCandidates s unit).map (·.id) = (s.sourcesOfUnit unit).map Row.id := by
  have hrows : (s.sources.rows.filter fun r => r.value.crate == unit.name &&
      r.value.version == unit.version && r.value.hasStatus .ok) = s.sourcesOfUnit unit := by
    apply List.filter_congr
    intro r hr
    rw [(h.sources r hr).hasStatus, Bool.and_true, Bool.eq_iff_iff]
    cases unit
    simp [SourceColumns.unit]
  unfold unitCandidates
  rw [hrows, List.map_filterMap, ← List.filterMap_eq_map]
  apply List.filterMap_congr
  intro r hr
  obtain ⟨d, hparse⟩ := (h.sources r (List.mem_filter.1 hr).1).parses
  rw [hparse]
  rfl

theorem isOk_candidates (h : s.Sound) (request : Request) : (candidates s request).isOk = true := by
  unfold candidates
  rw [isOk_map, isOk_mapM, List.all_eq_true]
  intro unit _
  unfold candidatesOf sourceFunctions
  rw [isOk_map]
  exact isOk_sourcesOf fun r hr => h.sources r (List.mem_filter.1 hr).1

theorem candidates_of_sound (h : s.Sound) (request : Request) :
    ∃ cs, candidates s request = .ok cs ∧ cs.map (·.id) =
      (request.unit :: request.extra).flatMap fun unit => (s.sourcesOfUnit unit).map Row.id := by
  obtain ⟨cs, hread⟩ := exists_of_isOk (isOk_candidates h request)
  refine ⟨cs, hread, ?_⟩
  rw [candidates_ok hread, requestCandidates, List.map_flatMap]
  simp only [ids_unitCandidates h]

theorem isOk_linkAll_of_sound (h : s.Sound) (request : Request) (policy : Policy) :
    (linkAll s request policy).isOk = true := by
  have hfunctions : ∀ p : Row BinaryColumns → Bool,
      (functionsOf (s.functions.rows.filter p)).isOk = true :=
    fun p => isOk_functionsOf fun r hr => h.functions r (List.mem_filter.1 hr).1
  rw [isOk_linkAll, isOk_candidates h, pendingRows, hfunctions, crateFunctions, hfunctions]
  rfl

theorem parses_of_pending (h : s.Sound) {crate : String} {r : Row BinaryColumns}
    (hr : r ∈ pendingRows s crate) : ∃ d, parse r.value.fullName = .ok d := by
  obtain ⟨hin, hpending⟩ := List.mem_filter.1 hr
  have hok : r.value.hasStatus .ok = true := by simp_all [isPending]
  exact (h.functions r hin).parses hok

theorem isSome_verdict (h : s.Sound) (request : Request) (policy : Policy) {r : Row BinaryColumns}
    (hr : r ∈ pendingRows s request.unit.name) :
    (verdict s request policy r.value).isSome = true := by
  obtain ⟨d, hparse⟩ := parses_of_pending h hr
  rw [verdict_of_parse s request policy hparse, Option.isSome_some]

theorem failures_of_sound (h : s.Sound) (request : Request) (policy : Policy) :
    (tally s request policy).failures = unparsedCount s request.unit.name := by
  have hnone : ((pendingRows s request.unit.name).map fun r => verdict s request policy r.value).countP
      Option.isNone = 0 := by
    rw [List.countP_eq_zero]
    intro v hv
    obtain ⟨r, hr, rfl⟩ := List.mem_map.1 hv
    have hsome := isSome_verdict h request policy hr
    simpa [Option.isSome_iff_ne_none] using hsome
  unfold tally
  dsimp only
  rw [hnone, Nat.zero_add]

/-- The functions that a pass goes over all have a probe. -/
theorem unmatchedFunctions_of_sound (h : s.Sound) (crate : String) :
    ∃ fs, s.unmatchedFunctions crate = .ok fs ∧
      ∀ f ∈ fs, (probeOf? crate f.value).isSome = true := by
  have hok : (functionsOf (pendingRows s crate)).isOk = true :=
    isOk_functionsOf fun r hr => h.functions r (List.mem_filter.1 hr).1
  obtain ⟨fs, hread⟩ := exists_of_isOk hok
  refine ⟨fs, hread, fun f hf => ?_⟩
  have hprobes : fs.map (fun f => probeOf? crate f.value) =
      (pendingRows s crate).map fun r => probe? crate r.value.fullName r.value.signature :=
    map_eq_of_forall₂ (functionsOf_ok hread) fun r f hrf => by rw [probeOf_eq, hrf.2.1, hrf.2.2]
  have hin : probeOf? crate f.value ∈ fs.map fun f => probeOf? crate f.value :=
    List.mem_map_of_mem hf
  rw [hprobes] at hin
  obtain ⟨r, hr, hprobe⟩ := List.mem_map.1 hin
  obtain ⟨d, hparse⟩ := parses_of_pending h hr
  rw [← hprobe, probe?, hparse]
  rfl

theorem pass_of_sound (h : s.Sound) (request : Request) (policy : Policy) (times : Times) :
    (s.findCrate? request.unit = none ∧
      (pass s request policy times).1 = .error (.unknownCrate request.unit)) ∨
    (∃ summary, (pass s request policy times).1 = .ok summary ∧
      summary.failures = unparsedCount s request.unit.name) ∨
    ∃ considered, (pass s request policy times).1 =
      .error (.tooManyFailures (unparsedCount s request.unit.name) considered
        policy.maxFailureRatio) := by
  have hfailures := failures_of_sound h request policy
  rcases pass_cases s request policy times with ⟨hnone, hp⟩ | ⟨reason, hlinks, -⟩ | ⟨-, hp⟩ |
    ⟨-, -, hp⟩
  · exact .inl ⟨hnone, by rw [hp]⟩
  · have hok := isOk_linkAll_of_sound h request policy
    rw [hlinks] at hok
    cases hok
  · exact .inr (.inr ⟨_, by rw [hp, hfailures]⟩)
  · exact .inr (.inl ⟨_, by rw [hp], hfailures⟩)

end Matching

namespace History

open Matching Store

/-- What rows say of functions after every history, and what passes get to read of them: all source
functions of the crate versions that are asked for, and no name that is not known to be unparsable. -/
theorem rows_are_sound (demangler : Demangler) (calls : List Call) :
    let s := after demangler calls
    (∀ r ∈ s.sources.rows, ∃ f, r.value.function = .ok f ∧ f.status = .ok ∧
      ⟨r.value.crateId, ⟨f.crate, f.version⟩⟩ ∈ s.crates.rows ∧
      (∃ d, parse f.fullName = .ok d ∧ f.name = d.symbolName ∧ f.kind = classify d) ∧
      ∀ text, f.signature = some text → Signature.Pattern.isValid text = true) ∧
    (∀ r ∈ s.functions.rows, ∃ f, r.value.function = .ok f ∧ (f.status = .ok →
      Signature.Pattern.isValid f.signature = true ∧
      ∃ d, parse f.fullName = .ok d ∧ d.crateName = some f.crate ∧ f.name = d.symbolName ∧
        f.kind = classify d)) ∧
    (∀ request, ∃ cs, candidates s request = .ok cs ∧ cs.map (·.id) =
      (request.unit :: request.extra).flatMap fun unit => (s.sourcesOfUnit unit).map Row.id) ∧
    (∀ crate, ∃ fs, s.unmatchedFunctions crate = .ok fs ∧
      ∀ f ∈ fs, (probeOf? crate f.value).isSome = true) ∧
    ∀ request policy times,
      (s.findCrate? request.unit = none ∧
        (pass s request policy times).1 = .error (.unknownCrate request.unit)) ∨
      (∃ summary, (pass s request policy times).1 = .ok summary ∧
        summary.failures = unparsedCount s request.unit.name) ∨
      ∃ considered, (pass s request policy times).1 =
        .error (.tooManyFailures (unparsedCount s request.unit.name) considered
          policy.maxFailureRatio) := by
  have h : (after demangler calls).Sound := sound_after calls
  refine ⟨fun r hr => ?_, fun r hr => ?_, candidates_of_sound h, unmatchedFunctions_of_sound h,
    pass_of_sound h⟩
  · have howner : ⟨r.value.crateId, r.value.unit⟩ ∈ (after demangler calls).crates.rows :=
      (owned_after calls).sources r hr
    obtain ⟨f, hf, hok, d, hdeclared⟩ := (h.sources r hr).record
    refine ⟨_, SourceColumns.function_of_record hf, hok, ?_, ⟨d, hdeclared⟩,
      (h.sources r hr).signature⟩
    rw [SourceColumns.unit, hf] at howner
    exact howner
  · obtain ⟨f, hf, hsound⟩ := (h.functions r hr).record
    refine ⟨_, BinaryColumns.function_of_record hf, fun hok => ?_⟩
    obtain ⟨⟨d, ⟨hparse, hname, hkind⟩, hcrate⟩, hvalid⟩ := hsound hok
    exact ⟨hvalid, d, hparse, hcrate, hname, hkind⟩

end History

end CrateTrace
