import CrateTrace.Proofs.History
import CrateTrace.Proofs.Ingest.Attachment
import CrateTrace.Proofs.Ingest.Outcomes

/-!
# What a call does

Each call leaves the store as it was or changes its tables in one of seven ways. What calls keep is
shown for these.
-/

namespace CrateTrace.History

open Ingest Mangling Matching Program Store

inductive Effect (demangler : Demangler) (s : Store) : Call → Store → Prop where
  | nothing (call : Call) : Effect demangler s call s
  | unitAdded {unit : CrateVersion} {entries : List Entry} {force : Bool}
    (unknown : s.findCrate? unit = none) :
    Effect demangler s (.ingestSources unit entries force)
      (putSources (s.addCrate unit) s.crates.next (sourcesOfEntries unit entries))
  | unitReplaced {unit : CrateVersion} {entries : List Entry} {row : Row CrateVersion}
    (known : s.findCrate? unit = some row) :
    Effect demangler s (.ingestSources unit entries true)
      (putSources ({ s with crates := s.crates.skip }.deleteSources row.id) row.id
        (sourcesOfEntries unit entries))
  | binaryAdded {wants : String → Bool} {binary : Binary} {dump : Dump} {force : Bool}
    (unknown : s.findBinary? binary.name = none) :
    Effect demangler s (.ingestDump wants binary dump force)
      (putFunctions (s.addBinary binary) s.binaries.next
        (functionsOfDump demangler wants binary.name dump))
  | binaryReplaced {wants : String → Bool} {binary : Binary} {dump : Dump} {row : Row Binary}
    (known : s.findBinary? binary.name = some row) :
    Effect demangler s (.ingestDump wants binary dump true)
      (putFunctions (({ s with binaries := s.binaries.skip }.deleteFunctions row.id).setHash row.id
        binary.hash) row.id (functionsOfDump demangler wants binary.name dump))
  | signed {unit : CrateVersion} {dump : Dump} {change : Row SourceColumns → SourceColumns}
    (signs : ∀ r, Signed r.value (change r)) :
    Effect demangler s (.attach unit dump) { s with sources := s.sources.modify change }
  | linked {request : Request} {policy : Policy} {times : Times} {summary : Summary}
    (committed : (pass s request policy times).1 = .ok summary) :
    Effect demangler s (.pass request policy times)
      ((passLinks s request policy).addRun (summary.run .committed times))
  | noted {request : Request} {policy : Policy} {times : Times} (run : Run) :
    Effect demangler s (.pass request policy times) (s.addRun run)

variable {demangler : Demangler}

theorem effect_run (s : Store) (call : Call) : Effect demangler s call (call.run demangler s) := by
  cases call with
  | ingestSources unit entries force =>
    change Effect demangler s _ (Ingest.ingestSources s unit entries force).2
    rcases ingestSources_cases s unit entries force with ⟨hunit, h⟩ | ⟨row, hunit, rfl, h⟩ |
      ⟨row, -, -, h⟩
    · rw [h]
      exact .unitAdded hunit
    · rw [h]
      exact .unitReplaced hunit
    · rw [h]
      exact .nothing _
  | ingestDump wants binary dump force =>
    change Effect demangler s _ (Ingest.ingestDump demangler s wants binary dump force).2
    rcases ingestDump_cases s wants binary dump force with ⟨hbinary, h⟩ | ⟨row, hbinary, rfl, h⟩ |
      ⟨row, -, -, h⟩
    · rw [h]
      exact .binaryAdded hbinary
    · rw [h]
      exact .binaryReplaced hbinary
    · rw [h]
      exact .nothing _
  | attach unit dump =>
    unfold Call.run
    cases hattach : Ingest.attach demangler s unit dump with
    | error e =>
      simp only [hattach]
      exact .nothing _
    | ok answer =>
      obtain ⟨summary, s'⟩ := answer
      obtain ⟨change, hchange, rfl⟩ := attach_ok hattach
      simp only [hattach]
      exact .signed hchange
  | pass request policy times =>
    change Effect demangler s _ (Matching.pass s request policy times).2
    rcases pass_cases s request policy times with ⟨-, h⟩ | ⟨reason, -, h⟩ | ⟨-, h⟩ | ⟨-, -, h⟩
    · rw [h]
      exact .nothing _
    · rw [h]
      exact .nothing _
    · rw [h]
      exact .noted _
    · have hok : (Matching.pass s request policy times).1 = .ok (tally s request policy) := by rw [h]
      rw [h]
      exact .linked hok

/-- What holds of the empty store and is kept by every effect holds after every history. -/
theorem after_of_effect {P : Store → Prop} (hempty : P .empty)
    (heffect : ∀ {s s' : Store} {call : Call}, Effect demangler s call s' → P s → P s')
    (calls : List Call) : P (after demangler calls) :=
  after_induction hempty (fun s call => heffect (effect_run s call)) calls

end CrateTrace.History
