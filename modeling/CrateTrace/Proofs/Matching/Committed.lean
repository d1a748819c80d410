import CrateTrace.Proofs.Correlation
import CrateTrace.Proofs.Matching.Pass

/-!
# Committed passes

What a pass that succeeds does to each table. Its links come from the store as it was before the
pass, so that no link depends on another one.
-/

namespace CrateTrace.Matching

open Correlation Name Store

/-! ## Targets -/

theorem row_of_unitCandidates {s : Store} {unit : CrateVersion} {c : Candidate}
    (h : c ∈ unitCandidates s unit) :
    ∃ r ∈ s.sources.rows, r.id = c.id ∧ CrateVersion.mk r.value.crate r.value.version = unit := by
  obtain ⟨r, hr, hc⟩ := List.mem_filterMap.1 h
  obtain ⟨hin, hunit⟩ := List.mem_filter.1 hr
  refine ⟨r, hin, ?_, by simp_all⟩
  split at hc
  · cases hc
  · cases hc
    rfl

/-- A source function that is found among the candidates is there, and of a crate version that is
asked for. -/
theorem named_of_resolve {s : Store} {request : Request} {tieBreak : TieBreak} {probe : Probe}
    {id : RowId} (h : (resolve tieBreak (requestCandidates s request) probe).source? = some id) :
    ∃ r ∈ s.sources.rows, r.id = id ∧
      CrateVersion.mk r.value.crate r.value.version ∈ request.unit :: request.extra := by
  obtain ⟨c, hc, rfl⟩ := source_resolve h
  obtain ⟨unit, hunit, hcandidate⟩ := List.mem_flatMap.1 hc
  obtain ⟨r, hr, hid, rfl⟩ := row_of_unitCandidates hcandidate
  exact ⟨r, hr, hid, hunit⟩

theorem row_of_resolve {s : Store} {request : Request} {tieBreak : TieBreak} {probe : Probe}
    {id : RowId} (h : (resolve tieBreak (requestCandidates s request) probe).source? = some id) :
    ∃ r ∈ s.sources.rows, r.id = id := by
  obtain ⟨r, hr, hid, -⟩ := named_of_resolve h
  exact ⟨r, hr, hid⟩

/-- A source function that a verdict names is there, and of a crate version that is asked for. -/
theorem named_of_verdict {s : Store} {request : Request} {policy : Policy} {f : BinaryColumns}
    {id : RowId} (h : (verdict s request policy f).bind Outcome.source? = some id) :
    ∃ r ∈ s.sources.rows, r.id = id ∧
      CrateVersion.mk r.value.crate r.value.version ∈ request.unit :: request.extra := by
  unfold verdict at h
  obtain ⟨outcome, houtcome, hsource⟩ := Option.bind_eq_some_iff.1 h
  obtain ⟨probe, -, rfl⟩ := Option.map_eq_some_iff.1 houtcome
  exact named_of_resolve hsource

theorem row_of_verdict {s : Store} {request : Request} {policy : Policy} {f : BinaryColumns}
    {id : RowId} (h : (verdict s request policy f).bind Outcome.source? = some id) :
    ∃ r ∈ s.sources.rows, r.id = id := by
  obtain ⟨r, hr, hid, -⟩ := named_of_verdict h
  exact ⟨r, hr, hid⟩

theorem verdict_of_parse (s : Store) (request : Request) (policy : Policy) {f : BinaryColumns}
    {d : Declaration} (h : parse f.fullName = .ok d) :
    verdict s request policy f =
      some (resolve policy.tieBreak (requestCandidates s request)
        ⟨d.structuralKey (some request.unit.name), validSignature? f.signature⟩) := by
  simp [verdict, probe?, h]

theorem isTarget_iff {s : Store} {request : Request} {policy : Policy} {id : RowId} :
    isTarget s request policy id ↔ ∃ r ∈ s.functions.rows, isPending request.unit.name r.value ∧
      (verdict s request policy r.value).bind Outcome.source? = some id := by
  unfold isTarget
  rw [List.any_eq_true]
  constructor
  · rintro ⟨r, hr, hlink⟩
    obtain ⟨hpending, htarget⟩ := Bool.and_eq_true_iff.1 hlink
    rw [target, if_pos hpending] at htarget
    exact ⟨r, hr, hpending, by simpa using htarget⟩
  · rintro ⟨r, hr, hpending, htarget⟩
    exact ⟨r, hr, by simp [target, hpending, htarget]⟩

/-! ## Counts -/

/-- A crate with one source function, and three functions of which the second has another name and
the third has none that can be parsed. -/
def sampleStore : Store :=
  let source : SourceFunction :=
    { crate := "app", name := "run", fullName := "app::run", kind := .normal "app", status := .ok,
      version := "1", signature := none, matched := false }
  let function (fullName : String) : BinaryFunction :=
    { crate := "app", name := "run", fullName, kind := .normal "app", status := .ok, binary := "b",
      address := 16, signature := "", matchedSource := none }
  ["app::run", "app::fly", "app::"].foldl (fun s name => s.addFunction 1 (function name))
    ((Store.empty.addCrate ⟨"app", "1"⟩).addSource 1 source)

def sampleRequest : Request := ⟨⟨"app", "1"⟩, []⟩

end CrateTrace.Matching
