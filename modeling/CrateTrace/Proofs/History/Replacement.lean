import CrateTrace.Proofs.History.Ownership

/-!
# What a dump leaves behind

A dump that is taken in puts its records in the place of all that its crate version or binary had.
Other rows stay as they are, but for links to source functions that are gone.
-/

namespace CrateTrace

open Ingest Mangling Program

variable {demangler : Demangler}

namespace Store

/-! ## Source functions -/

/-- From `s` to `s'` the records have come in the place of the source functions of a crate version. -/
structure SourcesReplaced (s s' : Store) (unit : CrateVersion) (records : List SourceFunction) :
    Prop where
  replaced : ∃ row ∈ s'.crates.rows, row.value = unit ∧
    (s'.sourcesOfUnit unit).map Row.value = records.map (.ofFunction row.id)
  others : s'.sources.rows.filter (·.value.unit ≠ unit) = s.sources.rows.filter (·.value.unit ≠ unit)
  links : s'.functions = s.functions.modify fun r =>
    r.value.unlink ((s.sourcesOfUnit unit).map Row.id).contains
  crates : ∃ added, s'.crates.rows = s.crates.rows ++ added ∧ ∀ row ∈ added, row.value = unit
  binaries : s'.binaries = s.binaries
  runs : s'.runs = s.runs

theorem SourcesReplaced.read {s s' : Store} {unit : CrateVersion} {records : List SourceFunction}
    (h : SourcesReplaced s s' unit records) :
    (s'.sourcesOfUnit unit).map (·.value.function) = records.map .ok := by
  obtain ⟨row, -, -, hrecords⟩ := h.replaced
  have hread := congrArg (List.map SourceColumns.function) hrecords
  simpa [Function.comp_def, SourceColumns.function_ofFunction] using hread

/-- A function whose link does not lead to what is gone stays as it is. -/
theorem BinaryColumns.unlink_of_kept {f : BinaryColumns} {gone : RowId → Bool}
    (h : ∀ id, f.matchedSource = some id → gone id = false) : f.unlink gone = f := by
  have hlink : (f.unlink gone).matchedSource = f.matchedSource := by
    ext id
    rw [matchedSource_unlink]
    exact and_iff_left_of_imp (h id)
  calc f.unlink gone = f.relink (f.unlink gone).matchedSource := rfl
    _ = f := by rw [hlink, relink_matchedSource]

theorem Owned.sourceIds_eq {s : Store} (h : s.Owned) {unit : CrateVersion} {row : Row CrateVersion}
    (hrow : s.findCrate? unit = some row) :
    s.sourceIds row.id = (s.sourcesOfUnit unit).map Row.id := by
  unfold sourceIds sourcesOfUnit
  congr 1
  apply List.filter_congr
  intro r hr
  rw [beq_eq_decide, decide_eq_decide]
  exact h.crateId_eq_iff hrow hr

theorem Owned.kept_eq {s : Store} (h : s.Owned) {unit : CrateVersion} {row : Row CrateVersion}
    (hrow : s.findCrate? unit = some row) :
    s.sources.rows.filter (·.value.crateId != row.id) = s.sources.rows.filter (·.value.unit ≠ unit) := by
  apply List.filter_congr
  intro r hr
  rw [bne, beq_eq_decide, ← decide_not, decide_eq_decide]
  exact not_congr (h.crateId_eq_iff hrow hr)

/-! ## Functions of binaries -/

/-- The functions of a binary, in the order of their numbers. -/
def functionsOfBinary (s : Store) (binary : String) : List (Row BinaryColumns) :=
  s.functions.rows.filter (·.value.binary = binary)

/-- From `s` to `s'` the records have come in the place of the functions of a binary. -/
structure FunctionsReplaced (s s' : Store) (binary : Binary) (records : List BinaryFunction) :
    Prop where
  replaced : ∃ row ∈ s'.binaries.rows, row.value = binary ∧
    (s'.functionsOfBinary binary.name).map Row.value = records.map (.ofFunction row.id)
  unlinked : ∀ f ∈ s'.functionsOfBinary binary.name, f.value.matchedSource = none
  others : s'.functions.rows.filter (·.value.binary ≠ binary.name) =
    s.functions.rows.filter (·.value.binary ≠ binary.name)
  marks : ∃ marked : Row SourceColumns → Bool,
    s'.sources = s.sources.modify fun r => r.value.mark (marked r)
  crates : s'.crates = s.crates
  binaries : s'.binaries.rows.filter (·.value.name ≠ binary.name) =
    s.binaries.rows.filter (·.value.name ≠ binary.name)
  runs : s'.runs = s.runs

theorem FunctionsReplaced.read {s s' : Store} {binary : Binary} {records : List BinaryFunction}
    (h : FunctionsReplaced s s' binary records) :
    (s'.functionsOfBinary binary.name).map (·.value.function) = records.map .ok := by
  obtain ⟨row, -, -, hrecords⟩ := h.replaced
  have hread := congrArg (List.map BinaryColumns.function) hrecords
  simpa [Function.comp_def, BinaryColumns.function_ofFunction] using hread

theorem Owned.keptFunctions_eq {s : Store} (h : s.Owned) {name : String} {row : Row Binary}
    (hrow : s.findBinary? name = some row) :
    s.functions.rows.filter (·.value.binaryId != row.id) =
      s.functions.rows.filter (·.value.binary ≠ name) := by
  apply List.filter_congr
  intro f hf
  rw [bne, beq_eq_decide, ← decide_not, decide_eq_decide]
  exact not_congr (h.binaryId_eq_iff hrow hf)

end Store

namespace Ingest

open Store

/-- The records of a crate version come behind rows of which none is of that crate version. -/
theorem filter_putSources {s : Store} {unit : CrateVersion} (entries : List Entry) (crateId : RowId)
    (hold : ∀ r ∈ s.sources.rows, r.value.unit ≠ unit) :
    let s' := putSources s crateId (sourcesOfEntries unit entries)
    (s'.sourcesOfUnit unit).map Row.value = (sourcesOfEntries unit entries).map (.ofFunction crateId) ∧
      s'.sources.rows.filter (·.value.unit ≠ unit) = s.sources.rows := by
  have hnew : ∀ v ∈ (sourcesOfEntries unit entries).map (SourceColumns.ofFunction crateId),
      decide (v.unit = unit) = true := by
    intro v hv
    obtain ⟨f, hf, rfl⟩ := List.mem_map.1 hv
    exact decide_eq_true (unit_of_mem_sourcesOfEntries hf crateId)
  obtain ⟨hrecords, hrest⟩ := Table.filter_insertAll (p := fun v => decide (v.unit = unit))
    (fun r hr => decide_eq_false (hold r hr)) hnew
  refine ⟨hrecords, ?_⟩
  rw [← hrest]
  exact List.filter_congr fun r _ => decide_not

theorem replaced_of_unknown {s : Store} (h : s.Owned) {unit : CrateVersion}
    (hnone : s.findCrate? unit = none) (entries : List Entry) :
    SourcesReplaced s
      (putSources (s.addCrate unit) s.crates.next (sourcesOfEntries unit entries)) unit
      (sourcesOfEntries unit entries) := by
  have hold : ∀ r ∈ s.sources.rows, r.value.unit ≠ unit := fun r hr => h.unit_ne hnone hr
  obtain ⟨hrecords, hrest⟩ := filter_putSources (s := s.addCrate unit) entries s.crates.next hold
  have hempty : s.sourcesOfUnit unit = [] := List.filter_eq_nil_iff.2 fun r hr => by simp [hold r hr]
  constructor
  case replaced => exact ⟨⟨s.crates.next, unit⟩, by simp [putSources, addCrate], rfl, hrecords⟩
  case others =>
    rw [hrest]
    exact (List.filter_eq_self.2 fun r hr => by simpa using hold r hr).symm
  case links =>
    have hkept : ∀ f : BinaryColumns, f.unlink ((s.sourcesOfUnit unit).map Row.id).contains = f :=
      fun f => BinaryColumns.unlink_of_kept fun id _ => by rw [hempty]; rfl
    simp only [hkept, Table.modify_id]
    rfl
  case crates => exact ⟨_, rfl, by simp⟩
  all_goals rfl

theorem replaced_of_known {s : Store} (h : s.Owned) {unit : CrateVersion} {row : Row CrateVersion}
    (hrow : s.findCrate? unit = some row) (entries : List Entry) :
    SourcesReplaced s
      (putSources ({ s with crates := s.crates.skip }.deleteSources row.id) row.id
        (sourcesOfEntries unit entries)) unit (sourcesOfEntries unit entries) := by
  obtain ⟨hin, hunit⟩ := findCrate?_some hrow
  have hkept := h.kept_eq hrow
  have hold : ∀ r ∈ s.sources.rows.filter (·.value.crateId != row.id), r.value.unit ≠ unit := by
    intro r hr
    rw [hkept, List.mem_filter] at hr
    simpa using hr.2
  obtain ⟨hrecords, hrest⟩ := filter_putSources
    (s := { s with crates := s.crates.skip }.deleteSources row.id) entries row.id hold
  constructor
  case replaced => exact ⟨row, hin, hunit, hrecords⟩
  case others => exact hrest.trans hkept
  case links =>
    rw [← h.sourceIds_eq hrow]
    rfl
  case crates => exact ⟨[], (List.append_nil _).symm, by simp⟩
  all_goals rfl

theorem filter_putFunctions {s : Store} (wants : String → Bool) {binary : String} (dump : Dump)
    (binaryId : RowId) (hold : ∀ f ∈ s.functions.rows, f.value.binary ≠ binary) :
    let records := functionsOfDump demangler wants binary dump
    let s' := putFunctions s binaryId records
    (s'.functionsOfBinary binary).map Row.value = records.map (.ofFunction binaryId) ∧
      (∀ f ∈ s'.functionsOfBinary binary, f.value.matchedSource = none) ∧
      s'.functions.rows.filter (·.value.binary ≠ binary) = s.functions.rows := by
  intro records s'
  have hnew : ∀ v ∈ records.map (BinaryColumns.ofFunction binaryId),
      decide (v.binary = binary) = true := by
    intro v hv
    obtain ⟨f, hf, rfl⟩ := List.mem_map.1 hv
    exact decide_eq_true (of_mem_functionsOfDump hf).1
  obtain ⟨hrecords, hrest⟩ := Table.filter_insertAll (p := fun v => decide (v.binary = binary))
    (fun f hf => decide_eq_false (hold f hf)) hnew
  refine ⟨hrecords, ?_, ?_⟩
  · intro f hf
    have hvalue : f.value ∈ records.map (BinaryColumns.ofFunction binaryId) :=
      hrecords ▸ List.mem_map_of_mem hf
    obtain ⟨record, hrecord, heq⟩ := List.mem_map.1 hvalue
    rw [← heq]
    exact (of_mem_functionsOfDump hrecord).2
  · rw [← hrest]
    exact List.filter_congr fun f _ => decide_not

theorem functionsReplaced_of_unknown {s : Store} (h : s.Owned) {binary : Binary}
    (hnone : s.findBinary? binary.name = none) (wants : String → Bool) (dump : Dump) :
    FunctionsReplaced s
      (putFunctions (s.addBinary binary) s.binaries.next
        (functionsOfDump demangler wants binary.name dump))
      binary (functionsOfDump demangler wants binary.name dump) := by
  have hold : ∀ f ∈ s.functions.rows, f.value.binary ≠ binary.name :=
    fun f hf => h.binary_ne hnone hf
  obtain ⟨hrecords, hfree, hrest⟩ := filter_putFunctions (s := s.addBinary binary) wants dump
    s.binaries.next hold
  constructor
  case replaced =>
    exact ⟨⟨s.binaries.next, binary⟩, by simp [putFunctions, addBinary], rfl, hrecords⟩
  case unlinked => exact hfree
  case others =>
    rw [hrest]
    exact (List.filter_eq_self.2 fun f hf => by simpa using hold f hf).symm
  case marks => exact ⟨fun r => r.value.matched, (Table.modify_id _).symm⟩
  case binaries => simp [putFunctions, addBinary]
  all_goals rfl

theorem functionsReplaced_of_known {s : Store} (h : s.Owned) {binary : Binary} {row : Row Binary}
    (hrow : s.findBinary? binary.name = some row) (wants : String → Bool) (dump : Dump) :
    FunctionsReplaced s
      (putFunctions (({ s with binaries := s.binaries.skip }.deleteFunctions row.id).setHash row.id
        binary.hash) row.id (functionsOfDump demangler wants binary.name dump))
      binary (functionsOfDump demangler wants binary.name dump) := by
  obtain ⟨hin, hname⟩ := findBinary?_some hrow
  have hkept := h.keptFunctions_eq hrow
  have hold : ∀ f ∈ s.functions.rows.filter (·.value.binaryId != row.id),
      f.value.binary ≠ binary.name := by
    intro f hf
    rw [hkept, List.mem_filter] at hf
    simpa using hf.2
  obtain ⟨hrecords, hfree, hrest⟩ := filter_putFunctions
    (s := ({ s with binaries := s.binaries.skip }.deleteFunctions row.id).setHash row.id binary.hash)
    wants dump row.id hold
  constructor
  case replaced =>
    have hrehashed : Binary.mk row.value.name binary.hash = binary := by rw [hname]
    refine ⟨⟨row.id, binary⟩, List.mem_map.2 ⟨row, hin, ?_⟩, rfl, hrecords⟩
    exact congrArg (Row.mk row.id) ((if_pos rfl).trans hrehashed)
  case unlinked => exact hfree
  case others => exact hrest.trans hkept
  case marks => exact ⟨_, rfl⟩
  case binaries =>
    refine Table.filter_modify (t := s.binaries) (fun r _ => ?_) fun r hr hother => if_neg ?_
    · dsimp only
      split <;> rfl
    · rintro hid
      rw [s.binaries.eq_of_id_eq hr hin hid] at hother
      simp [hname] at hother
  all_goals rfl

/-! ## How a dump is taken in -/

theorem ingestSources_replaces {s : Store} (h : s.Owned) (unit : CrateVersion)
    (entries : List Entry) (force : Bool) :
    (ingestSources s unit entries force = (.alreadyPresent, s) ∧ force = false ∧
      ∃ row ∈ s.crates.rows, row.value = unit) ∨
    ∃ s', ingestSources s unit entries force =
        (taken entries.length (sourcesOfEntries unit entries).length, s') ∧
      (force = true ∨ ∀ row ∈ s.crates.rows, row.value ≠ unit) ∧
      SourcesReplaced s s' unit (sourcesOfEntries unit entries) := by
  rcases ingestSources_cases s unit entries force with ⟨hnone, hend⟩ | ⟨row, hrow, rfl, hend⟩ |
    ⟨row, hrow, rfl, hend⟩
  · exact .inr ⟨_, hend, .inr (findCrate?_none.1 hnone), replaced_of_unknown h hnone entries⟩
  · exact .inr ⟨_, hend, .inl rfl, replaced_of_known h hrow entries⟩
  · exact .inl ⟨hend, rfl, row, findCrate?_some hrow⟩

theorem ingestDump_replaces {s : Store} (h : s.Owned) (wants : String → Bool) (binary : Binary)
    (dump : Dump) (force : Bool) :
    (ingestDump demangler s wants binary dump force = (.alreadyPresent, s) ∧ force = false ∧
      ∃ row ∈ s.binaries.rows, row.value.name = binary.name) ∨
    ∃ s', ingestDump demangler s wants binary dump force =
        (taken dump.length (functionsOfDump demangler wants binary.name dump).length, s') ∧
      (force = true ∨ ∀ row ∈ s.binaries.rows, row.value.name ≠ binary.name) ∧
      FunctionsReplaced s s' binary (functionsOfDump demangler wants binary.name dump) := by
  rcases ingestDump_cases s wants binary dump force with ⟨hnone, hend⟩ | ⟨row, hrow, rfl, hend⟩ |
    ⟨row, hrow, rfl, hend⟩
  · exact .inr ⟨_, hend, .inr (findBinary?_none.1 hnone),
      functionsReplaced_of_unknown h hnone wants dump⟩
  · exact .inr ⟨_, hend, .inl rfl, functionsReplaced_of_known h hrow wants dump⟩
  · exact .inl ⟨hend, rfl, row, findBinary?_some hrow⟩

end Ingest

namespace History

open Store

/-- Taken in again by force after any other history, a source dump leaves the same records. -/
theorem sources_again (unit : CrateVersion) (entries : List Entry) (other : List Call) :
    ∃ t, ingestSources (after demangler other) unit entries true =
        (taken entries.length (sourcesOfEntries unit entries).length, t) ∧
      (t.sourcesOfUnit unit).map (·.value.function) = (sourcesOfEntries unit entries).map .ok := by
  rcases ingestSources_replaces (owned_after other) unit entries true with ⟨-, hforce, -⟩ |
    ⟨t, hend, -, hreplaced⟩
  · cases hforce
  · exact ⟨t, hend, hreplaced.read⟩

theorem dump_again (wants : String → Bool) (binary : Binary) (dump : Dump) (other : List Call) :
    ∃ t, ingestDump demangler (after demangler other) wants binary dump true =
        (taken dump.length (functionsOfDump demangler wants binary.name dump).length, t) ∧
      (t.functionsOfBinary binary.name).map (·.value.function) =
        (functionsOfDump demangler wants binary.name dump).map .ok := by
  rcases ingestDump_replaces (owned_after other) wants binary dump true with ⟨-, hforce, -⟩ |
    ⟨t, hend, -, hreplaced⟩
  · cases hforce
  · exact ⟨t, hend, hreplaced.read⟩

/-- Both kinds of dumps, each from any store that a history leads to: it is refused without a trace or
its records are all that its crate version or binary has. Dumped again by force after any other
history, it leaves the same records. -/
theorem dumps_replace_records (demangler : Demangler) (calls : List Call) (force : Bool) :
    let s := after demangler calls
    (∀ unit entries,
      (ingestSources s unit entries force = (.alreadyPresent, s) ∧ force = false ∧
        ∃ row ∈ s.crates.rows, row.value = unit) ∨
      ∃ functions skipped s', ingestSources s unit entries force = (.ingested functions skipped, s') ∧
        functions = (entries.filterMap (sourceOf? unit)).length ∧
        functions + skipped = entries.length ∧
        (force = true ∨ ∀ row ∈ s.crates.rows, row.value ≠ unit) ∧
        SourcesReplaced s s' unit (entries.filterMap (sourceOf? unit)) ∧
        ∀ other, ∃ t, ingestSources (after demangler other) unit entries true =
            (.ingested functions skipped, t) ∧
          (t.sourcesOfUnit unit).map (·.value.function) =
            (s'.sourcesOfUnit unit).map (·.value.function)) ∧
    (∀ unit entry f, sourceOf? unit entry = some f ↔ RecordOf unit entry f) ∧
    (∀ wants binary dump,
      (ingestDump demangler s wants binary dump force = (.alreadyPresent, s) ∧ force = false ∧
        ∃ row ∈ s.binaries.rows, row.value.name = binary.name) ∨
      ∃ functions skipped s', ingestDump demangler s wants binary dump force =
          (.ingested functions skipped, s') ∧
        functions =
          (dump.filterMap fun (key, entry) => functionOf? demangler wants binary.name key entry).length ∧
        functions + skipped = dump.length ∧
        (force = true ∨ ∀ row ∈ s.binaries.rows, row.value.name ≠ binary.name) ∧
        FunctionsReplaced s s' binary
          (dump.filterMap fun (key, entry) => functionOf? demangler wants binary.name key entry) ∧
        ∀ other, ∃ t, ingestDump demangler (after demangler other) wants binary dump true =
            (.ingested functions skipped, t) ∧
          (t.functionsOfBinary binary.name).map (·.value.function) =
            (s'.functionsOfBinary binary.name).map (·.value.function)) ∧
    (∀ j dump, Dump.ofJson? j = some dump → dump.Pairwise fun a b => a.1 < b.1) := by
  intro s
  refine ⟨fun unit entries => ?_, fun _ _ _ => sourceOf_iff, fun wants binary dump => ?_,
    fun _ _ => ordered_of_ofJson⟩
  · rcases ingestSources_replaces (owned_after calls) unit entries force with hpresent |
      ⟨s', hend, hnew, hreplaced⟩
    · exact .inl hpresent
    · refine .inr ⟨_, _, s', hend, rfl, ?_, hnew, hreplaced, fun other => ?_⟩
      · exact Nat.add_sub_of_le (List.length_filterMap_le _ entries)
      · rw [hreplaced.read]
        exact sources_again unit entries other
  · rcases ingestDump_replaces (owned_after calls) wants binary dump force with hpresent |
      ⟨s', hend, hnew, hreplaced⟩
    · exact .inl hpresent
    · refine .inr ⟨_, _, s', hend, rfl, ?_, hnew, hreplaced, fun other => ?_⟩
      · exact Nat.add_sub_of_le (List.length_filterMap_le _ dump)
      · rw [hreplaced.read]
        exact dump_again wants binary dump other

end History

end CrateTrace
