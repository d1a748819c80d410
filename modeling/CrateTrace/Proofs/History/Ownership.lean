import CrateTrace.Proofs.History.Effects

/-!
# Rows and their owners

Every source function belongs to the crate version that it names, and every function of a binary to
the binary that it names. No crate version and no binary is there twice.
-/

namespace CrateTrace

open Ingest Mangling

namespace Store

def SourceColumns.unit (f : SourceColumns) : CrateVersion := ⟨f.crate, f.version⟩

/-- The source functions of a crate version, in the order of their numbers. -/
def sourcesOfUnit (s : Store) (unit : CrateVersion) : List (Row SourceColumns) :=
  s.sources.rows.filter (·.value.unit = unit)

def SourceColumns.OwnedIn (f : SourceColumns) (crates : Table CrateVersion) : Prop :=
  ⟨f.crateId, f.unit⟩ ∈ crates.rows

def BinaryColumns.OwnedIn (f : BinaryColumns) (binaries : Table Binary) : Prop :=
  ∃ b ∈ binaries.rows, b.id = f.binaryId ∧ b.value.name = f.binary

structure Owned (s : Store) : Prop where
  units : (s.crates.rows.map Row.value).Nodup
  names : (s.binaries.rows.map (·.value.name)).Nodup
  sources : s.sources.All (·.OwnedIn s.crates)
  functions : s.functions.All (·.OwnedIn s.binaries)

theorem owned_empty : empty.Owned where
  units := .nil
  names := .nil
  sources := by simp [Table.All, empty]
  functions := by simp [Table.All, empty]

/-! ## Look-up of owners -/

theorem findCrate?_none {s : Store} {unit : CrateVersion} :
    s.findCrate? unit = none ↔ ∀ row ∈ s.crates.rows, row.value ≠ unit := by
  simp [findCrate?, Table.find?]

theorem findCrate?_some {s : Store} {unit : CrateVersion} {row : Row CrateVersion}
    (h : s.findCrate? unit = some row) : row ∈ s.crates.rows ∧ row.value = unit := by
  have hvalue := List.find?_some h
  exact ⟨List.mem_of_find?_eq_some h, by simpa using hvalue⟩

theorem findBinary?_none {s : Store} {name : String} :
    s.findBinary? name = none ↔ ∀ row ∈ s.binaries.rows, row.value.name ≠ name := by
  simp [findBinary?, Table.find?]

theorem findBinary?_some {s : Store} {name : String} {row : Row Binary}
    (h : s.findBinary? name = some row) : row ∈ s.binaries.rows ∧ row.value.name = name := by
  have hvalue := List.find?_some h
  exact ⟨List.mem_of_find?_eq_some h, by simpa using hvalue⟩

/-- A source function belongs to a crate version by number if and only if it does by name. -/
theorem Owned.crateId_eq_iff {s : Store} (h : s.Owned) {unit : CrateVersion}
    {row : Row CrateVersion} (hrow : s.findCrate? unit = some row) {r : Row SourceColumns}
    (hr : r ∈ s.sources.rows) : r.value.crateId = row.id ↔ r.value.unit = unit := by
  obtain ⟨hin, rfl⟩ := findCrate?_some hrow
  have howner := h.sources r hr
  constructor
  · exact fun hid => congrArg Row.value (s.crates.eq_of_id_eq howner hin hid)
  · exact fun hunit => congrArg Row.id (List.inj_on_of_nodup_map h.units howner hin hunit)

theorem Owned.unit_ne {s : Store} (h : s.Owned) {unit : CrateVersion}
    (hnone : s.findCrate? unit = none) {r : Row SourceColumns} (hr : r ∈ s.sources.rows) :
    r.value.unit ≠ unit :=
  findCrate?_none.1 hnone _ (h.sources r hr)

theorem Owned.binaryId_eq_iff {s : Store} (h : s.Owned) {name : String} {row : Row Binary}
    (hrow : s.findBinary? name = some row) {f : Row BinaryColumns} (hf : f ∈ s.functions.rows) :
    f.value.binaryId = row.id ↔ f.value.binary = name := by
  obtain ⟨hin, rfl⟩ := findBinary?_some hrow
  obtain ⟨b, hb, hid, hname⟩ := h.functions f hf
  rw [← hid, ← hname]
  constructor
  · exact fun heq => congrArg (·.value.name) (s.binaries.eq_of_id_eq hb hin heq)
  · exact fun heq => congrArg Row.id (List.inj_on_of_nodup_map h.names hb hin heq)

theorem Owned.binary_ne {s : Store} (h : s.Owned) {name : String}
    (hnone : s.findBinary? name = none) {f : Row BinaryColumns} (hf : f ∈ s.functions.rows) :
    f.value.binary ≠ name := by
  obtain ⟨b, hb, -, hname⟩ := h.functions f hf
  exact hname ▸ findBinary?_none.1 hnone b hb

end Store

/-! ## Owners of new rows -/

namespace Ingest

open Store

theorem unit_of_mem_sourcesOfEntries {unit : CrateVersion} {entries : List Entry}
    {f : SourceFunction} (h : f ∈ sourcesOfEntries unit entries) (crateId : RowId) :
    (SourceColumns.ofFunction crateId f).unit = unit := by
  obtain ⟨entry, hentry⟩ := recordOf_of_mem h
  exact hentry.unit

theorem Signed.ownedIn {f f' : SourceColumns} (h : Signed f f') {crates : Table CrateVersion}
    (howned : f.OwnedIn crates) : f'.OwnedIn crates := by
  rcases h with rfl | ⟨signature, -, rfl⟩
  · exact howned
  · exact howned

end Ingest

/-! ## Calls -/

namespace History

open Store

variable {demangler : Demangler}

theorem Effect.owned {s s' : Store} {call : Call} (effect : Effect demangler s call s')
    (h : s.Owned) : s'.Owned := by
  cases effect with
  | nothing => exact h
  | @unitAdded unit entries force unknown =>
    have hfresh : ∀ r ∈ s.crates.rows, r.value ≠ unit := findCrate?_none.1 unknown
    have hnew : ⟨s.crates.next, unit⟩ ∈ (s.crates.insert unit).rows := by simp
    have hold : s.sources.All (·.OwnedIn (s.crates.insert unit)) :=
      h.sources.imp fun f hf => List.mem_append_left _ hf
    refine ⟨?_, h.names, hold.insertAll fun f hf => ?_, h.functions⟩
    · simpa [putSources, addCrate, List.nodup_append] using ⟨h.units, hfresh⟩
    · obtain ⟨record, hrecord, rfl⟩ := List.mem_map.1 hf
      rwa [SourceColumns.OwnedIn, unit_of_mem_sourcesOfEntries hrecord]
  | @unitReplaced unit entries row known =>
    obtain ⟨hin, rfl⟩ := findCrate?_some known
    refine ⟨h.units, h.names, (h.sources.filter _).insertAll fun f hf => ?_,
      h.functions.modify fun _ hf => hf⟩
    obtain ⟨record, hrecord, rfl⟩ := List.mem_map.1 hf
    rwa [SourceColumns.OwnedIn, unit_of_mem_sourcesOfEntries hrecord]
  | @binaryAdded wants binary dump force unknown =>
    have hfresh : ∀ r ∈ s.binaries.rows, r.value.name ≠ binary.name := findBinary?_none.1 unknown
    have hnew : ⟨s.binaries.next, binary⟩ ∈ (s.binaries.insert binary).rows := by simp
    have hold : s.functions.All (·.OwnedIn (s.binaries.insert binary)) :=
      h.functions.imp fun f ⟨b, hb, howner⟩ => ⟨b, List.mem_append_left _ hb, howner⟩
    refine ⟨h.units, ?_, h.sources, hold.insertAll fun f hf => ?_⟩
    · simpa [putFunctions, addBinary, List.nodup_append] using ⟨h.names, hfresh⟩
    · obtain ⟨record, hrecord, rfl⟩ := List.mem_map.1 hf
      exact ⟨_, hnew, rfl, (of_mem_functionsOfDump hrecord).1.symm⟩
  | @binaryReplaced wants binary dump row known =>
    obtain ⟨hin, hname⟩ := findBinary?_some known
    let rehash (r : Row Binary) : Binary :=
      if r.id = row.id then { r.value with hash := binary.hash } else r.value
    have hkept : ∀ r, (rehash r).name = r.value.name := by
      intro r
      dsimp only [rehash]
      split <;> rfl
    have howned : ∀ b ∈ s.binaries.rows, ∀ f : BinaryColumns,
        b.id = f.binaryId ∧ b.value.name = f.binary → f.OwnedIn (s.binaries.modify rehash) :=
      fun b hb f howner => ⟨_, List.mem_map_of_mem hb, howner.1, (hkept b).trans howner.2⟩
    have hold : s.functions.All (·.OwnedIn (s.binaries.modify rehash)) :=
      h.functions.imp fun f ⟨b, hb, howner⟩ => howned b hb f howner
    refine ⟨h.units, ?_, h.sources.modify fun _ hf => hf,
      (hold.filter _).insertAll fun f hf => ?_⟩
    · change ((s.binaries.modify rehash).rows.map (·.value.name)).Nodup
      simpa [Function.comp_def, hkept] using h.names
    · obtain ⟨record, hrecord, rfl⟩ := List.mem_map.1 hf
      exact howned row hin _ ⟨rfl, hname.trans (of_mem_functionsOfDump hrecord).1.symm⟩
  | signed signs =>
    exact ⟨h.units, h.names, h.sources.modify fun r hr => (signs r).ownedIn hr, h.functions⟩
  | linked committed =>
    exact ⟨h.units, h.names, h.sources.modify fun _ hf => hf, h.functions.modify fun _ hf => hf⟩
  | noted run => exact ⟨h.units, h.names, h.sources, h.functions⟩

theorem owned_after (calls : List Call) : (after demangler calls).Owned :=
  after_of_effect owned_empty Effect.owned calls

end History

end CrateTrace
