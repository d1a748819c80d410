import CrateTrace.Correlation
import Mathlib.Data.List.Basic

/-!
# Answers of the correlation

A source function that is named by an answer is one of the candidates.
-/

namespace CrateTrace.Correlation

theorem mem_of_mem_offer {probe : Probe} {best : Best} {c d : Candidate}
    (h : d ∈ (best.offer probe c).members) : d ∈ best.members ∨ d = c := by
  unfold Best.offer at h
  split at h
  · exact .inl h
  · split at h
    · exact .inl h
    · split at h
      · exact .inr (by simpa using h)
      · simpa using h

theorem mem_of_mem_foldl_offer {probe : Probe} {pool : List Candidate} {best : Best} {d : Candidate}
    (h : d ∈ (pool.foldl (Best.offer probe) best).members) : d ∈ best.members ∨ d ∈ pool := by
  induction pool generalizing best with
  | nil => exact .inl h
  | cons c pool ih =>
    rcases ih h with h | h
    · rcases mem_of_mem_offer h with h | rfl
      · exact .inl h
      · exact .inr List.mem_cons_self
    · exact .inr (List.mem_cons_of_mem _ h)

theorem mem_of_mem_bestOf {probe : Probe} {pool : List Candidate} {d : Candidate}
    (h : d ∈ bestOf probe pool) : d ∈ pool := by
  rcases mem_of_mem_foldl_offer h with h | h
  · cases h
  · exact h

theorem foldl_least_mem (c : Candidate) (rest : List Candidate) :
    rest.foldl (fun least c => if c.before least then c else least) c ∈ c :: rest := by
  induction rest generalizing c with
  | nil => exact List.mem_cons_self
  | cons e rest ih =>
    rw [List.foldl_cons]
    rcases List.mem_cons.1 (ih (if e.before c then e else c)) with h | h
    · rw [h]
      split <;> simp
    · exact List.mem_cons_of_mem _ (List.mem_cons_of_mem _ h)

theorem mem_of_least {cs : List Candidate} {d : Candidate} (h : least? cs = some d) : d ∈ cs := by
  cases cs with
  | nil => cases h
  | cons c rest =>
    cases h
    exact foldl_least_mem c rest

theorem source_breakTie {policy : TieBreak} {tied : List Candidate} {reason : Reason} {id : Int}
    (h : (breakTie policy tied reason).source? = some id) : ∃ c ∈ tied, c.id = id := by
  unfold breakTie at h
  split at h
  · rename_i c hleast
    exact ⟨c, mem_of_least hleast, by simpa [Outcome.source?] using h⟩
  · cases h

theorem source_resolve {policy : TieBreak} {candidates : List Candidate} {probe : Probe} {id : Int}
    (h : (resolve policy candidates probe).source? = some id) : ∃ c ∈ candidates, c.id = id := by
  have hsub : ∀ {c}, c ∈ candidates.filter (fun c => c.key = probe.key) → c ∈ candidates :=
    fun hc => (List.mem_filter.1 hc).1
  unfold resolve at h
  split at h
  · rename_i only heq
    exact ⟨only, hsub (by simp [heq]), by simpa [Outcome.source?] using h⟩
  · split at h
    · cases h
    · rename_i only heq
      exact ⟨only, mem_of_mem_bestOf (by rw [heq]; simp), by simpa [Outcome.source?] using h⟩
    · obtain ⟨c, hc, hid⟩ := source_breakTie h
      exact ⟨c, mem_of_mem_bestOf hc, hid⟩
  · split at h
    · rename_i only heq
      exact ⟨only, hsub (mem_of_mem_bestOf (by rw [heq]; simp)), by simpa [Outcome.source?] using h⟩
    · obtain ⟨c, hc, hid⟩ := source_breakTie h
      exact ⟨c, hsub hc, hid⟩
    · obtain ⟨c, hc, hid⟩ := source_breakTie h
      exact ⟨c, hsub (mem_of_mem_bestOf hc), hid⟩

end CrateTrace.Correlation
