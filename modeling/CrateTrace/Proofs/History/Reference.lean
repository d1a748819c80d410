import CrateTrace.Mangling.Standard
import CrateTrace.Proofs.Correlation.Decision
import CrateTrace.Proofs.History.Links
import CrateTrace.Proofs.History.Records
import CrateTrace.Proofs.History.Replacement

/-!
# Reference builds and binaries

A dumped function has the same source function whether its signature is attached or it is matched by
its name.
-/

namespace CrateTrace

open Correlation Ingest Mangling Matching Name Program Store

variable {demangler : Demangler}

/-! ## Answers by name -/

namespace Correlation

theorem resolve_eq_name_iff {policy : TieBreak} {candidates : List Candidate} {probe : Probe}
    {id : Int} :
    resolve policy candidates probe = .linked id .name ↔
      (named candidates probe).map (·.id) = [id] := by
  constructor
  · intro h
    have hanswers := answers_resolve policy candidates probe
    rw [h] at hanswers
    cases hanswers with
    | byName only => rw [only, List.map_singleton]
  · intro h
    obtain ⟨c, hnamed, rfl⟩ := List.map_eq_singleton_iff.1 h
    exact resolve_of_named hnamed

end Correlation

/-! ## What a pass comes to -/

namespace Matching

variable {s : Store} {request : Request} {policy : Policy}

/-- A pass is not refused, and comes to this outcome about the function with this number. -/
def Resolves (s : Store) (request : Request) (policy : Policy) (id : RowId)
    (outcome : Correlation.Outcome) : Prop :=
  s.findCrate? request.unit ≠ none ∧
  ∃ cs fs f, candidates s request = .ok cs ∧ s.unmatchedFunctions request.unit.name = .ok fs ∧
    f ∈ fs ∧ f.id = id ∧
    (probeOf? request.unit.name f.value).map (resolve policy.tieBreak cs) = some outcome

theorem resolves_iff {cs : List Candidate} {fs : List (Row BinaryFunction)}
    (hcandidates : candidates s request = .ok cs)
    (hfunctions : s.unmatchedFunctions request.unit.name = .ok fs) {id : RowId}
    {outcome : Correlation.Outcome} :
    Resolves s request policy id outcome ↔ s.findCrate? request.unit ≠ none ∧
      ∃ r ∈ pendingRows s request.unit.name, r.id = id ∧
        verdict s request policy r.value = some outcome := by
  have hverdicts : fs.map (fun f =>
      (f.id, (probeOf? request.unit.name f.value).map (resolve policy.tieBreak cs))) =
      (pendingRows s request.unit.name).map fun r => (r.id, verdict s request policy r.value) := by
    refine map_eq_of_forall₂ (functionsOf_ok hfunctions) ?_
    rintro r f ⟨hid, hname, hsignature⟩
    rw [hid, probeOf_eq, hname, hsignature, candidates_ok hcandidates]
    rfl
  have hmem : (id, some outcome) ∈ fs.map (fun f =>
      (f.id, (probeOf? request.unit.name f.value).map (resolve policy.tieBreak cs))) ↔
      (id, some outcome) ∈
        (pendingRows s request.unit.name).map fun r => (r.id, verdict s request policy r.value) := by
    rw [hverdicts]
  simp only [List.mem_map, Prod.mk.injEq] at hmem
  rw [← hmem]
  constructor
  · rintro ⟨hcrate, cs', fs', f, hcs, hfs, hf, houtcome⟩
    obtain rfl : cs = cs' := Except.ok.inj (hcandidates.symm.trans hcs)
    obtain rfl : fs = fs' := Except.ok.inj (hfunctions.symm.trans hfs)
    exact ⟨hcrate, f, hf, houtcome⟩
  · rintro ⟨hcrate, f, hf, houtcome⟩
    exact ⟨hcrate, cs, fs, f, hcandidates, hfunctions, hf, houtcome⟩

/-- A pass that succeeds makes the links that it has come to. -/
theorem Resolves.linked {id : RowId} {outcome : Correlation.Outcome}
    (h : Resolves s request policy id outcome) {times : Times} {summary : Summary} {s' : Store}
    (hpass : pass s request policy times = (.ok summary, s')) :
    ∃ r ∈ s'.functions.rows, r.id = id ∧ r.value.matchedSource = outcome.source? := by
  have hread := h
  obtain ⟨-, cs, fs, -, hcandidates, hfunctions, -⟩ := hread
  obtain ⟨-, r, hr, rfl, hverdict⟩ := (resolves_iff hcandidates hfunctions).1 h
  obtain ⟨hin, hpending⟩ := List.mem_filter.1 hr
  have htarget : target s request policy r.value = outcome.source? := by
    rw [target, if_pos hpending, hverdict, Option.bind_some]
  obtain ⟨-, rfl⟩ := pass_ok hpass
  exact ⟨_, List.mem_map_of_mem hin, rfl, htarget⟩

end Matching

/-! ## Keys -/

namespace Ingest

variable {s s' : Store} {unit : CrateVersion}

/-- What there is to know about source functions for the sake of their names. -/
def unitKeys (s : Store) (unit : CrateVersion) : List (StructuralKey × RowId) :=
  (unitCandidates s unit).map fun c => (c.key, c.id)

theorem sourceKeys_eq {sources : List (Row SourceFunction)}
    (h : s.sourceFunctions unit = .ok sources) : sourceKeys unit.name sources = unitKeys s unit := by
  unfold unitKeys unitCandidates
  rw [List.map_filterMap]
  refine filterMap_eq_of_forall₂ (sourcesOf_ok h) ?_
  rintro r f ⟨hid, hname, -⟩
  unfold structuralKeyOf
  rw [hid, hname]
  cases parse r.value.fullName <;> rfl

/-- Signatures and marks are no part of it. -/
theorem unitKeys_modify {change : Row SourceColumns → SourceColumns}
    (h : s'.sources = s.sources.modify change)
    (hchange : ∀ r, (change r).toFunctionColumns = r.value.toFunctionColumns ∧
      (change r).version = r.value.version) : unitKeys s' unit = unitKeys s unit := by
  unfold unitKeys unitCandidates
  rw [h, Table.rows_modify, List.filter_map, List.filterMap_map, List.map_filterMap,
    List.map_filterMap]
  have hcrate : ∀ r, (change r).crate = r.value.crate := fun r => congrArg (·.crate) (hchange r).1
  have hname : ∀ r, (change r).fullName = r.value.fullName :=
    fun r => congrArg (·.fullName) (hchange r).1
  have hstatus : ∀ r, (change r).hasStatus .ok = r.value.hasStatus .ok :=
    fun r => congrArg (·.hasStatus .ok) (hchange r).1
  simp only [Function.comp_def, hcrate, hname, hstatus, (hchange _).2]
  congr 1
  funext r
  cases parse r.value.fullName <;> rfl

/-- A signature is attached to the only candidate whose name is that of the dumped function. -/
theorem standsFor_unitKeys {policy : TieBreak} {entry : FunctionDump} {probe : Probe} {id : RowId}
    (h : referenceKey? demangler unit.name entry = some probe.key) :
    standsFor? demangler unit.name (unitKeys s unit) entry = some id ↔
      resolve policy (unitCandidates s unit) probe = .linked id .name := by
  have hnamed : ((unitKeys s unit).filter (·.1 = probe.key)).map Prod.snd =
      (named (unitCandidates s unit) probe).map (·.id) := by
    rw [unitKeys, List.filter_map, List.map_map]
    rfl
  rw [standsFor?, h, Option.bind_some, soleId_iff, resolve_eq_name_iff, hnamed]

/-! ## Dumped functions -/

/-- A dumped function of the crate that has everything that is asked of one. -/
structure Usable (demangler : Demangler) (crate key : String) (entry : FunctionDump) : Prop where
  rust : entry.isRust = true
  signature : Signature.Pattern.isValid entry.signature = true
  address : (addressOfKey? key).isSome = true
  blocks : entry.blocks ≠ []
  name : ∃ fullName d, demangle demangler entry.name = .ok fullName ∧ parse fullName = .ok d ∧
    d.crateName = some crate

/-- It is kept, and compared by the key under which its signature is attached. -/
theorem Usable.kept {crate key : String} {entry : FunctionDump} (h : Usable demangler crate key entry)
    {wants : String → Bool} (wanted : wants crate = true) (binary : String) :
    ∃ f probe, functionOf? demangler wants binary key entry = some f ∧
      addressOfKey? key = some f.address ∧ f.crate = crate ∧ f.status = .ok ∧
      probe? crate f.fullName f.signature = some probe ∧
      referenceKey? demangler crate entry = some probe.key := by
  obtain ⟨hrust, hvalid, haddress, hblocks, fullName, d, hdemangle, hparse, hcrate⟩ := h
  obtain ⟨address, haddress⟩ := Option.isSome_iff_exists.1 haddress
  refine ⟨parsedFunction wants binary address fullName d entry,
    ⟨d.structuralKey (some crate), validSignature? entry.signature⟩, ?_, haddress, ?_, ?_, ?_, ?_⟩
  · simp [functionOf?, hrust, haddress, hdemangle, hparse]
  · simp [parsedFunction, hcrate]
  · simp [parsedFunction, statusOf, hcrate, hvalid, hblocks, wanted]
  · simp [parsedFunction, probe?, hparse]
  · simp [referenceKey?, hrust, hvalid, hdemangle, hparse, hcrate]

/-! ## After the dump is taken in -/

theorem row_of_replaced {binary : Binary} {before behind : List BinaryFunction} {f : BinaryFunction}
    (h : FunctionsReplaced s s' binary (before ++ f :: behind)) :
    ∃ row, (s'.functionsOfBinary binary.name)[before.length]? = some row ∧
      ∃ binaryId, row.value = .ofFunction binaryId f := by
  obtain ⟨b, -, -, hrows⟩ := h.replaced
  have hvalue : ((s'.functionsOfBinary binary.name).map Row.value)[before.length]? =
      some (.ofFunction b.id f) := by
    rw [hrows]
    simp
  rw [List.getElem?_map] at hvalue
  obtain ⟨row, hrow, hvalue⟩ := Option.map_eq_some_iff.1 hvalue
  exact ⟨row, hrow, b.id, hvalue⟩

theorem pending_of_replaced {binary : Binary} {records : List BinaryFunction} {f : BinaryFunction}
    (h : FunctionsReplaced s s' binary records) {row : Row BinaryColumns} {binaryId : RowId}
    (hrow : row ∈ s'.functionsOfBinary binary.name) (hvalue : row.value = .ofFunction binaryId f)
    (hstatus : f.status = .ok) : row ∈ pendingRows s' f.crate := by
  have hfree := h.unlinked row hrow
  have hcrate : row.value.crate = f.crate := by rw [hvalue]; rfl
  have hok : row.value.hasStatus .ok = true := by
    rw [hvalue]
    exact (FunctionColumns.hasStatus_ofFunction f.toFunction .ok).trans (decide_eq_true hstatus)
  refine List.mem_filter.2 ⟨(List.mem_filter.1 hrow).1, ?_⟩
  simp [isPending, hcrate, hok, hfree]

theorem resolves_iff_standsFor (hsound : s'.Sound) (known : s'.findCrate? unit ≠ none)
    {binary : Binary} {wants : String → Bool} {before behind : Dump} {key : String}
    {entry : FunctionDump} (h : Usable demangler unit.name key entry) (wanted : wants unit.name = true)
    (hreplaced : FunctionsReplaced s s' binary
      (functionsOfDump demangler wants binary.name (before ++ (key, entry) :: behind)))
    (policy : Policy) :
    ∃ row, (s'.functionsOfBinary binary.name)[(functionsOfDump demangler wants binary.name
        before).length]? = some row ∧ addressOfKey? key = some row.value.address ∧
      ∀ id, standsFor? demangler unit.name (unitKeys s unit) entry = some id ↔
        Resolves s' ⟨unit, []⟩ policy row.id (.linked id .name) := by
  obtain ⟨f, probe, hf, haddress, hcrate, hstatus, hprobe, hkey⟩ := h.kept wanted binary.name
  have hrecords : functionsOfDump demangler wants binary.name (before ++ (key, entry) :: behind) =
      functionsOfDump demangler wants binary.name before ++
        f :: functionsOfDump demangler wants binary.name behind := by
    unfold functionsOfDump
    rw [List.filterMap_append]
    congr 1
    exact List.filterMap_cons_some hf
  rw [hrecords] at hreplaced
  obtain ⟨row, hrow, binaryId, hvalue⟩ := row_of_replaced hreplaced
  have hpending : row ∈ pendingRows s' unit.name :=
    hcrate ▸ pending_of_replaced hreplaced (List.mem_of_getElem? hrow) hvalue hstatus
  obtain ⟨marked, hmarked⟩ := hreplaced.marks
  have hkeys : unitKeys s' unit = unitKeys s unit := unitKeys_modify hmarked fun _ => ⟨rfl, rfl⟩
  have hverdict : verdict s' ⟨unit, []⟩ policy row.value =
      some (resolve policy.tieBreak (unitCandidates s' unit) probe) := by
    have hprobe' : probe? unit.name row.value.fullName row.value.signature = some probe := by
      rw [hvalue]
      exact hprobe
    rw [verdict, hprobe', requestCandidates, List.flatMap_singleton, Option.map_some]
  refine ⟨row, hrow, by rw [hvalue]; exact haddress, fun id => ?_⟩
  obtain ⟨cs, hcandidates, -⟩ := candidates_of_sound hsound ⟨unit, []⟩
  obtain ⟨fs, hfunctions, -⟩ := unmatchedFunctions_of_sound hsound unit.name
  rw [← hkeys, standsFor_unitKeys hkey, resolves_iff hcandidates hfunctions]
  constructor
  · intro hresolve
    exact ⟨known, row, hpending, rfl, hverdict.trans (congrArg some hresolve)⟩
  · rintro ⟨-, r, hr, hid, hr'⟩
    obtain rfl : r = row := s'.functions.eq_of_id_eq (List.mem_filter.1 hr).1
      (List.mem_filter.1 hpending).1 hid
    exact Option.some.inj (hverdict.symm.trans hr')

end Ingest

namespace History

/-- The store may have got signatures before the dump is taken in. -/
theorem resolves_after {calls : List Call} {s : Store} {change : Row SourceColumns → SourceColumns}
    (hs : after demangler calls = { s with sources := s.sources.modify change })
    (hchange : ∀ r, Signed r.value (change r)) {unit : CrateVersion}
    (known : s.findCrate? unit ≠ none) {binary : Binary}
    (fresh : s.findBinary? binary.name = none) {wants : String → Bool}
    (wanted : wants unit.name = true) {before behind : Dump} {key : String} {entry : FunctionDump}
    (h : Usable demangler unit.name key entry) (force : Bool) (policy : Policy) :
    let dump := before ++ (key, entry) :: behind
    let s' := (ingestDump demangler (after demangler calls) wants binary dump force).2
    ∃ row, (s'.functionsOfBinary binary.name)[(functionsOfDump demangler wants binary.name
        before).length]? = some row ∧ addressOfKey? key = some row.value.address ∧
      ∀ id, standsFor? demangler unit.name (unitKeys s unit) entry = some id ↔
        Resolves s' ⟨unit, []⟩ policy row.id (.linked id .name) := by
  intro dump s'
  have hsound : s'.Sound :=
    (effect_run (after demangler calls) (.ingestDump wants binary dump force)).sound
      (sound_after calls)
  have hreplaced : FunctionsReplaced (after demangler calls) s' binary
      (functionsOfDump demangler wants binary.name dump) := by
    have howned : (after demangler calls).Owned := owned_after calls
    rcases ingestDump_replaces howned wants binary dump force with ⟨-, -, hold⟩ | ⟨t, hend, -, ht⟩
    · obtain ⟨row, hrow, hname⟩ := hold
      rw [hs] at hrow
      exact absurd hname (findBinary?_none.1 fresh row hrow)
    · unfold s'
      rw [hend]
      exact ht
  have hknown : s'.findCrate? unit ≠ none := by
    unfold findCrate? at known ⊢
    rw [hreplaced.crates, hs]
    exact known
  have hkeys : unitKeys (after demangler calls) unit = unitKeys s unit := by
    refine unitKeys_modify (congrArg Store.sources hs) fun r => ?_
    rcases hchange r with hsame | ⟨signature, -, hsigned⟩
    · rw [hsame]
      exact ⟨rfl, rfl⟩
    · rw [hsigned]
      exact ⟨rfl, rfl⟩
  rw [← hkeys]
  exact resolves_iff_standsFor hsound hknown h wanted hreplaced policy

theorem run_attach {s s' : Store} {unit : CrateVersion} {dump : Dump} {summary : AttachSummary}
    (h : attach demangler s unit dump = .ok (summary, s')) :
    Call.run demangler s (.attach unit dump) = s' := by
  unfold Call.run
  simp only [h]

/-- A dumped function gives its signature to a source function if and only if it is linked to it by
name when the dump is taken in as that of a new binary, be it before or after the signatures. -/
theorem attached_iff_matched_by_name (demangler : Demangler) (calls : List Call)
    {unit : CrateVersion} (known : (after demangler calls).findCrate? unit ≠ none) {binary : Binary}
    (fresh : (after demangler calls).findBinary? binary.name = none) {wants : String → Bool}
    (wanted : wants unit.name = true) {before behind : Dump} {key : String} {entry : FunctionDump}
    (h : Usable demangler unit.name key entry) (force : Bool) (policy : Policy) :
    let s := after demangler calls
    let dump := before ++ (key, entry) :: behind
    ∃ sources summary signed, s.sourceFunctions unit = .ok sources ∧
      let keys := sourceKeys unit.name sources
      let signature? := signatureFor? demangler unit.name keys (dump.map Prod.snd)
      attach demangler s unit dump = .ok (summary, signed) ∧
      signed = { s with sources := s.sources.modify fun r => sign r.value (signature? r.id) } ∧
      ∀ s₀, s₀ = s ∨ s₀ = signed →
        let s' := (ingestDump demangler s₀ wants binary dump force).2
        ∃ row, (s'.functionsOfBinary binary.name)[(functionsOfDump demangler wants binary.name
            before).length]? = some row ∧
          addressOfKey? key = some row.value.address ∧
          (∀ id, standsFor? demangler unit.name keys entry = some id ↔
            Resolves s' ⟨unit, []⟩ policy row.id (.linked id .name)) ∧
          ∀ id times summary s'', standsFor? demangler unit.name keys entry = some id →
            pass s' ⟨unit, []⟩ policy times = (.ok summary, s'') →
            ∃ r ∈ s''.functions.rows, r.id = row.id ∧ r.value.matchedSource = some id := by
  intro s dump
  have hread : (s.sourceFunctions unit).isOk = true :=
    isOk_sourcesOf fun r hr => (sound_after calls).sources r (List.mem_filter.1 hr).1
  obtain ⟨sources, hsources⟩ := exists_of_isOk hread
  obtain ⟨summary, hattach⟩ := attach_signs hsources dump
  refine ⟨sources, summary, _, hsources, hattach, rfl, fun s₀ hs₀ => ?_⟩
  intro s'
  obtain ⟨calls', change, hcalls, hchange, hs₀⟩ : ∃ calls' change,
      after demangler calls' = s₀ ∧ (∀ r, Signed r.value (change r)) ∧
      s₀ = { s with sources := s.sources.modify change } := by
    rcases hs₀ with rfl | rfl
    · refine ⟨calls, fun r => r.value, rfl, fun _ => .inl rfl, ?_⟩
      rw [Table.modify_id]
    · refine ⟨calls ++ [.attach unit dump], _, ?_, fun r => signed_sign r.value _ r.id, rfl⟩
      rw [after_append]
      exact run_attach hattach
  subst hcalls
  obtain ⟨row, hrow, haddress, hiff⟩ :=
    resolves_after hs₀ hchange known fresh wanted h force policy
  rw [← sourceKeys_eq hsources] at hiff
  refine ⟨row, hrow, haddress, hiff, fun id times summary s'' hstands hpass => ?_⟩
  exact ((hiff id).1 hstands).linked hpass

theorem attached_iff_matched_by_name_sample :
    let unit : CrateVersion := ⟨"app", "1"⟩
    let entry : FunctionDump :=
      { name := "_ZN3app3run17h0123456789abcdefE", isRust := true, edges := [],
        blocks := [(0, ["ret"])], signature := "c3" ++ String.ofList (List.replicate 62 '-') }
    let s := after standard [.ingestSources unit [[.str "fn \x7bapp::run\x7d"]] false]
    let s' := (ingestDump standard s (· == "app") ⟨"b", none⟩ [("10", entry)] false).2
    s.findCrate? unit ≠ none ∧ s.findBinary? "b" = none ∧ Usable standard "app" "10" entry ∧
      ∃ row, (s'.functionsOfBinary "b")[0]? = some row ∧ row.value.address = 16 ∧
        Resolves s' ⟨unit, []⟩ .standard row.id (.linked 1 .name) := by
  intro unit entry s s'
  have known : s.findCrate? unit ≠ none := by decide +kernel
  have fresh : s.findBinary? "b" = none := by decide +kernel
  have usable : Usable standard "app" "10" entry :=
    ⟨rfl, by decide +kernel, by decide +kernel, by decide, "app::run",
      ⟨[⟨.name "app", none⟩, ⟨.name "run", none⟩], none⟩, by decide +kernel, by decide +kernel,
      by decide +kernel⟩
  have h := @attached_iff_matched_by_name standard
    [.ingestSources unit [[.str "fn \x7bapp::run\x7d"]] false] unit known ⟨"b", none⟩ fresh
    (· == "app") rfl [] [] "10" entry usable false .standard
  obtain ⟨sources, summary, signed, hsources, -, -, hrows⟩ := h
  obtain ⟨row, hrow, haddress, hiff, -⟩ := hrows s (.inl rfl)
  refine ⟨known, fresh, usable, row, hrow, ?_, (hiff 1).1 ?_⟩
  · have hkey : addressOfKey? "10" = some 16 := by decide +kernel
    exact (Option.some.inj (hkey.symm.trans haddress)).symm
  · rw [sourceKeys_eq hsources]
    decide +kernel

end History

end CrateTrace
