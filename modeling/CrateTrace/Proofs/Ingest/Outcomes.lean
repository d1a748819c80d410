import CrateTrace.Proofs.Ingest.Records
import CrateTrace.Proofs.Store.Consistency

/-!
# How ingestion ends

A dump is taken in as a new one, put in the place of what was there, or refused. Each ending is given
by the tables that it leaves.
-/

namespace CrateTrace.Ingest

open Mangling Program Store

/-! ## Source dumps -/

def putSources (s : Store) (crateId : RowId) (records : List SourceFunction) : Store :=
  { s with sources := s.sources.insertAll (records.map (.ofFunction crateId)) }

theorem foldl_addSource (s : Store) (crateId : RowId) (records : List SourceFunction) :
    records.foldl (·.addSource crateId) s = putSources s crateId records := by
  induction records generalizing s with
  | nil => rfl
  | cons f records ih =>
    rw [List.foldl_cons, ih]
    rfl

/-- No record is refused if its crate version is there. -/
theorem foldlM_insertSource {s : Store} {crateId : RowId} (h : s.crates.contains crateId)
    (records : List SourceFunction) :
    records.foldlM (fun s f => (s.insertSource crateId f).map Prod.snd) s =
      .ok (putSources s crateId records) := by
  induction records generalizing s with
  | nil => rfl
  | cons f records ih =>
    have hstep : (s.insertSource crateId f).map Prod.snd = .ok (s.addSource crateId f) := by
      rw [insertSource, if_pos h]
      rfl
    have hrest := ih (s := s.addSource crateId f) h
    rw [← foldl_addSource] at hrest ⊢
    rw [List.foldlM_cons, hstep]
    exact hrest

/-- What is said of a dump that is taken in. -/
def taken (total kept : Nat) : Outcome := .ingested kept (total - kept)

theorem fillCrate_eq (s : Store) (crateId : RowId) (unit : CrateVersion) (entries : List Entry) :
    fillCrate s crateId unit entries =
      (taken entries.length (sourcesOfEntries unit entries).length,
        putSources s crateId (sourcesOfEntries unit entries)) := by
  unfold fillCrate
  dsimp only
  rw [foldl_addSource]
  rfl

/-- A crate version is filled without its number being checked for each record, which comes to the
same. -/
theorem fillCrate_checked {s : Store} {crateId : RowId} (h : s.crates.contains crateId)
    (unit : CrateVersion) (entries : List Entry) :
    (sourcesOfEntries unit entries).foldlM
        (fun s f => (s.insertSource crateId f).map Prod.snd) s =
      .ok (fillCrate s crateId unit entries).2 := by
  rw [fillCrate_eq]
  exact foldlM_insertSource h _

theorem ingestSources_cases (s : Store) (unit : CrateVersion) (entries : List Entry)
    (force : Bool) :
    (s.findCrate? unit = none ∧ ingestSources s unit entries force =
      (taken entries.length (sourcesOfEntries unit entries).length,
        putSources (s.addCrate unit) s.crates.next (sourcesOfEntries unit entries))) ∨
    (∃ row, s.findCrate? unit = some row ∧ force = true ∧ ingestSources s unit entries force =
      (taken entries.length (sourcesOfEntries unit entries).length,
        putSources ({ s with crates := s.crates.skip }.deleteSources row.id) row.id
          (sourcesOfEntries unit entries))) ∨
    (∃ row, s.findCrate? unit = some row ∧ force = false ∧
      ingestSources s unit entries force = (.alreadyPresent, s)) := by
  unfold ingestSources ensureCrate
  cases hrow : s.findCrate? unit with
  | none => exact .inl ⟨rfl, fillCrate_eq _ _ unit entries⟩
  | some row =>
    cases force with
    | true => exact .inr (.inl ⟨row, rfl, rfl, fillCrate_eq _ _ unit entries⟩)
    | false => exact .inr (.inr ⟨row, rfl, rfl, rfl⟩)

/-! ## Binary dumps -/

variable {demangler : Demangler}

def putFunctions (s : Store) (binaryId : RowId) (records : List BinaryFunction) : Store :=
  { s with functions := s.functions.insertAll (records.map (.ofFunction binaryId)) }

theorem foldl_addFunction (s : Store) (binaryId : RowId) (records : List BinaryFunction) :
    records.foldl (·.addFunction binaryId) s = putFunctions s binaryId records := by
  induction records generalizing s with
  | nil => rfl
  | cons f records ih =>
    rw [List.foldl_cons, ih]
    rfl

/-- No record without a link is refused if its binary is there. -/
theorem foldlM_insertFunction {s : Store} {binaryId : RowId} (h : s.binaries.contains binaryId)
    {records : List BinaryFunction} (hfree : ∀ f ∈ records, f.matchedSource = none) :
    records.foldlM (fun s f => (s.insertFunction binaryId f).map Prod.snd) s =
      .ok (putFunctions s binaryId records) := by
  induction records generalizing s with
  | nil => rfl
  | cons f records ih =>
    rw [List.forall_mem_cons] at hfree
    have hstep : (s.insertFunction binaryId f).map Prod.snd = .ok (s.addFunction binaryId f) := by
      rw [insertFunction, if_pos ⟨h, by rw [hfree.1]; rfl⟩]
      rfl
    have hrest := ih (s := s.addFunction binaryId f) h hfree.2
    rw [← foldl_addFunction] at hrest ⊢
    rw [List.foldlM_cons, hstep]
    exact hrest

theorem fillBinary_eq (s : Store) (binaryId : RowId) (wants : String → Bool) (binary : String)
    (dump : Dump) :
    fillBinary demangler s binaryId wants binary dump =
      (taken dump.length (functionsOfDump demangler wants binary dump).length,
        putFunctions s binaryId (functionsOfDump demangler wants binary dump)) := by
  unfold fillBinary
  dsimp only
  rw [foldl_addFunction]
  rfl

theorem fillBinary_checked {s : Store} {binaryId : RowId} (h : s.binaries.contains binaryId)
    (wants : String → Bool) (binary : String) (dump : Dump) :
    (functionsOfDump demangler wants binary dump).foldlM
        (fun s f => (s.insertFunction binaryId f).map Prod.snd) s =
      .ok (fillBinary demangler s binaryId wants binary dump).2 := by
  rw [fillBinary_eq]
  exact foldlM_insertFunction h fun f hf => (of_mem_functionsOfDump hf).2

theorem ingestDump_cases (s : Store) (wants : String → Bool) (binary : Binary) (dump : Dump)
    (force : Bool) :
    (s.findBinary? binary.name = none ∧ ingestDump demangler s wants binary dump force =
      (taken dump.length (functionsOfDump demangler wants binary.name dump).length,
        putFunctions (s.addBinary binary) s.binaries.next
          (functionsOfDump demangler wants binary.name dump))) ∨
    (∃ row, s.findBinary? binary.name = some row ∧ force = true ∧
      ingestDump demangler s wants binary dump force =
        (taken dump.length (functionsOfDump demangler wants binary.name dump).length,
          putFunctions (({ s with binaries := s.binaries.skip }.deleteFunctions row.id).setHash row.id
            binary.hash) row.id (functionsOfDump demangler wants binary.name dump))) ∨
    (∃ row, s.findBinary? binary.name = some row ∧ force = false ∧
      ingestDump demangler s wants binary dump force = (.alreadyPresent, s)) := by
  unfold ingestDump ensureBinary
  cases hrow : s.findBinary? binary.name with
  | none => exact .inl ⟨rfl, fillBinary_eq _ _ wants binary.name dump⟩
  | some row =>
    cases force with
    | true => exact .inr (.inl ⟨row, rfl, rfl, fillBinary_eq _ _ wants binary.name dump⟩)
    | false => exact .inr (.inr ⟨row, rfl, rfl, rfl⟩)

theorem ingestDump_of_fresh (demangler : Demangler) {s : Store} {binary : Binary}
    (fresh : s.findBinary? binary.name = none) (wants : String → Bool) (dump : Dump) (force : Bool) :
    ingestDump demangler s wants binary dump force =
      (taken dump.length (functionsOfDump demangler wants binary.name dump).length,
        putFunctions (s.addBinary binary) s.binaries.next
          (functionsOfDump demangler wants binary.name dump)) := by
  rcases ingestDump_cases s wants binary dump force with ⟨-, hend⟩ | ⟨row, hrow, -⟩ | ⟨row, hrow, -⟩
  · exact hend
  · rw [fresh] at hrow
    cases hrow
  · rw [fresh] at hrow
    cases hrow

end CrateTrace.Ingest
