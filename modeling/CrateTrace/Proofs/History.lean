import CrateTrace.Proofs.Ingest.Consistency
import CrateTrace.Proofs.Matching.Consistency

/-!
# Histories

What a project has gone through is a list of calls of the services, each of which may fail. What
every call keeps holds after every history.
-/

namespace CrateTrace.History

open Ingest Mangling Matching Program Store

inductive Call where
  | ingestSources (unit : CrateVersion) (entries : List Entry) (force : Bool)
  | ingestDump (wants : String → Bool) (binary : Binary) (dump : Dump) (force : Bool)
  | attach (unit : CrateVersion) (dump : Dump)
  | pass (request : Request) (policy : Policy) (times : Times)

/-- The store that a call leaves, whether it succeeds or not. -/
def Call.run (demangler : Demangler) (s : Store) : Call → Store
  | .ingestSources unit entries force => (Ingest.ingestSources s unit entries force).2
  | .ingestDump wants binary dump force => (Ingest.ingestDump demangler s wants binary dump force).2
  | .attach unit dump =>
    match Ingest.attach demangler s unit dump with
    | .error _ => s
    | .ok (_, s') => s'
  | .pass request policy times => (Matching.pass s request policy times).2

/-- The store after calls, the first of which finds it empty. -/
def after (demangler : Demangler) (calls : List Call) : Store :=
  calls.foldl (Call.run demangler) .empty

variable {demangler : Demangler}

/-- What holds of the empty store and is kept by every call holds after every history. -/
theorem after_induction {P : Store → Prop} (hempty : P .empty)
    (hrun : ∀ s call, P s → P (Call.run demangler s call)) (calls : List Call) :
    P (after demangler calls) := by
  have hfold : ∀ s, P s → P (calls.foldl (Call.run demangler) s) := by
    induction calls with
    | nil => exact fun s hs => hs
    | cons call calls ih => exact fun s hs => ih _ (hrun s call hs)
  exact hfold _ hempty

/-! ## Marks and links -/

theorem consistent_run (s : Store) (call : Call) (h : s.Consistent) :
    (call.run demangler s).Consistent := by
  cases call with
  | ingestSources unit entries force => exact consistent_ingestSources h unit entries force
  | ingestDump wants binary dump force => exact consistent_ingestDump h wants binary dump force
  | attach unit dump =>
    unfold Call.run
    cases hattach : Ingest.attach demangler s unit dump with
    | error e => simpa [hattach] using h
    | ok answer => simpa [hattach] using consistent_attach h hattach
  | pass request policy times => exact consistent_pass h request policy times

theorem consistent_after (calls : List Call) : (after demangler calls).Consistent :=
  after_induction consistent_empty consistent_run calls

/-- After every history marks and links agree, links lead somewhere and start at functions that are
`ok`, and the listing of links is as long as the counts say. -/
theorem marks_agree_with_links (demangler : Demangler) (calls : List Call) :
    let s := after demangler calls
    (∀ r ∈ s.sources.rows, r.value.matched = true ↔
      ∃ f ∈ s.functions.rows, f.value.matchedSource = some r.id) ∧
    (∀ f ∈ s.functions.rows, ∀ id, f.value.matchedSource = some id →
      ∃ r ∈ s.sources.rows, r.id = id) ∧
    (∀ f ∈ s.functions.rows, f.value.matchedSource ≠ none → f.value.hasStatus .ok = true) ∧
    (s.listMatches none).length = s.stats.linkedBinaryFunctions ∧
    (s.functions.rows.filterMap (·.value.matchedSource)).dedup.length =
      s.stats.matchedSourceFunctions := by
  have h : (after demangler calls).Consistent := consistent_after calls
  refine ⟨?_, ?_, h.statuses, h.length_listMatches, h.length_linkedSources⟩
  · intro r hr
    rw [h.marks r hr]
    exact isLinked_iff
  · exact fun f hf id hlink => Table.contains_iff.1 (h.targets f hf id hlink)

end CrateTrace.History
