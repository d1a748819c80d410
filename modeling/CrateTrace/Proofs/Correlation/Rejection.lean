import CrateTrace.Proofs.Correlation.Decision

/-!
# Contradicted links

A candidate whose signature contradicts the probe's cannot be linked by its signature, but it can
win a tie of names. Main statement: this is so just if none of several candidates with the probe's
key agrees with it, and the policy takes the least of them all the same.
-/

namespace CrateTrace.Correlation

open Name Signature

variable {policy : TieBreak} {candidates pool : List Candidate} {probe : Probe} {c : Candidate}

/-! ## Signatures of two sides -/

/-- The other candidate has no signature that could contradict. -/
theorem contradicted_is_linked :
    ¬ ∀ (policy : TieBreak) (candidates : List Candidate) (key : StructuralKey) (p : Pattern)
      (id : Int) (basis : Basis), basis ≠ .name →
      resolve policy candidates ⟨key, some p⟩ = .linked id basis →
      ∃ c ∈ candidates, c.id = id ∧ ∀ s, c.signature = some s → p.agreement s ≠ none := by
  intro hall
  let mov : Pattern := ⟨.byte 0x48 :: List.replicate 31 .filler⟩
  let push : Pattern := ⟨.byte 0x55 :: List.replicate 31 .filler⟩
  let key : StructuralKey := ⟨["run"], none⟩
  let candidates : List Candidate :=
    [⟨1, "app::run<T>", key, some mov⟩, ⟨2, "app::run<U>", key, none⟩]
  have hlinked : resolve .lexicographicallySmallest candidates ⟨key, some push⟩ =
      .linked 1 .tieBreak := by
    decide +kernel
  obtain ⟨c, hc, hid, hsignature⟩ := hall _ candidates key push 1 .tieBreak (by decide) hlinked
  simp only [candidates, List.mem_cons, List.not_mem_nil, or_false] at hc
  rcases hc with rfl | rfl
  · exact hsignature mov rfl (by decide)
  · cases hid

end CrateTrace.Correlation
