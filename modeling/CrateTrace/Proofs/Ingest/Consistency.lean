import CrateTrace.Ingest.Reference
import CrateTrace.Proofs.Ingest.Records
import CrateTrace.Proofs.Store.Consistency

/-!
# Ingestion keeps marks and links in step

New functions come without links, and new source functions unmarked.
-/

namespace CrateTrace.Ingest

open Mangling Program Store

variable {demangler : Demangler}

/-! ## Source dumps -/

theorem consistent_fillCrate {s : Store} (h : s.Consistent) (crateId : RowId) (unit : CrateVersion)
    (entries : List Entry) : (fillCrate s crateId unit entries).2.Consistent := by
  have hunmatched : ∀ f ∈ sourcesOfEntries unit entries, f.matched = false := by
    intro f hf
    obtain ⟨entry, hentry⟩ := recordOf_of_mem hf
    exact hentry.unmarked
  unfold fillCrate
  dsimp only
  generalize sourcesOfEntries unit entries = fs at hunmatched
  induction fs generalizing s with
  | nil => exact h
  | cons f fs ih =>
    exact ih (h.addSource crateId (hunmatched f List.mem_cons_self))
      fun g hg => hunmatched g (List.mem_cons_of_mem _ hg)

theorem consistent_ensureCrate {s : Store} (h : s.Consistent) (unit : CrateVersion) :
    (s.ensureCrate unit).2.2.Consistent := by
  unfold ensureCrate
  split <;> exact h.of_rows rfl rfl

theorem consistent_ingestSources {s : Store} (h : s.Consistent) (unit : CrateVersion)
    (entries : List Entry) (force : Bool) :
    (ingestSources s unit entries force).2.Consistent := by
  have hensured := consistent_ensureCrate h unit
  unfold ingestSources
  dsimp only
  split
  · exact consistent_fillCrate hensured _ _ _
  · split
    · exact consistent_fillCrate (hensured.deleteSources _) _ _ _
    · exact h

/-! ## Binary dumps -/

theorem consistent_fillBinary {s : Store} (h : s.Consistent) (binaryId : RowId)
    (wants : String → Bool) (binary : String) (dump : Dump) :
    (fillBinary demangler s binaryId wants binary dump).2.Consistent := by
  have hfree : ∀ f ∈ functionsOfDump demangler wants binary dump, f.matchedSource = none :=
    fun _ hf => (of_mem_functionsOfDump hf).2
  unfold fillBinary
  dsimp only
  generalize functionsOfDump demangler wants binary dump = fs at hfree
  induction fs generalizing s with
  | nil => exact h
  | cons f fs ih =>
    exact ih (h.addFunction binaryId (hfree f List.mem_cons_self))
      fun g hg => hfree g (List.mem_cons_of_mem _ hg)

theorem consistent_ensureBinary {s : Store} (h : s.Consistent) (binary : Binary) :
    (s.ensureBinary binary).2.2.Consistent := by
  unfold ensureBinary
  split <;> exact h.of_rows rfl rfl

theorem consistent_ingestDump {s : Store} (h : s.Consistent) (wants : String → Bool)
    (binary : Binary) (dump : Dump) (force : Bool) :
    (ingestDump demangler s wants binary dump force).2.Consistent := by
  have hensured := consistent_ensureBinary h binary
  unfold ingestDump
  dsimp only
  split
  · exact consistent_fillBinary hensured _ _ _ _
  · split
    · exact consistent_fillBinary ((hensured.deleteFunctions _).setHash _ _) _ _ _ _
    · exact h

/-! ## Reference signatures -/

theorem consistent_setSignatures {s : Store} (h : s.Consistent)
    (signatures : List (RowId × String)) :
    (signatures.foldl (fun s (id, signature) => s.setSignature id signature) s).Consistent := by
  induction signatures generalizing s with
  | nil => exact h
  | cons first signatures ih => exact ih (h.setSignature _ _)

theorem consistent_attach {s s' : Store} (h : s.Consistent) {unit : CrateVersion} {dump : Dump}
    {summary : AttachSummary} (hattach : attach demangler s unit dump = .ok (summary, s')) :
    s'.Consistent := by
  unfold attach at hattach
  split at hattach
  · cases hattach
  · cases hattach
    exact consistent_setSignatures h _

end CrateTrace.Ingest
