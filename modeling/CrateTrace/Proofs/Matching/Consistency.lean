import CrateTrace.Proofs.Matching.Committed
import CrateTrace.Proofs.Store.Consistency

/-!
# Passes keep marks and links in step
-/

namespace CrateTrace.Matching

open Correlation Store

/-- A pass gives links to functions without one, and marks just the source functions that they
lead to. -/
theorem consistent_passLinks {s : Store} (h : s.Consistent) (request : Request) (policy : Policy) :
    (passLinks s request policy).Consistent := by
  have htarget : ∀ f ∈ s.functions.rows, ∀ id, target s request policy f.value = some id →
      (isPending request.unit.name f.value ∧
        (verdict s request policy f.value).bind Outcome.source? = some id) ∨
      f.value.matchedSource = some id := by
    intro f _ id hid
    unfold target at hid
    split at hid
    · exact .inl ⟨‹_›, hid⟩
    · exact .inr hid
  apply consistent_relinked
  · intro r hr
    rw [Bool.or_eq_true, isTarget_iff, h.marks r hr, isLinked_iff]
    constructor
    · rintro (⟨f, hf, hpending, hlink⟩ | ⟨f, hf, hlink⟩)
      · exact ⟨f, hf, by rw [target, if_pos hpending, hlink]⟩
      · refine ⟨f, hf, ?_⟩
        rw [target, if_neg (by simp [isPending, hlink]), hlink]
    · rintro ⟨f, hf, hlink⟩
      rcases htarget f hf _ hlink with ⟨hpending, hnew⟩ | hold
      · exact .inl ⟨f, hf, hpending, hnew⟩
      · exact .inr ⟨f, hf, hold⟩
  · intro f hf id hlink
    rcases htarget f hf id hlink with ⟨-, hnew⟩ | hold
    · exact Table.contains_iff.2 (row_of_verdict hnew)
    · exact h.targets f hf id hold
  · intro f hf hlink
    obtain ⟨id, hid⟩ := Option.ne_none_iff_exists'.1 hlink
    rcases htarget f hf id hid with ⟨hpending, -⟩ | hold
    · simp_all [isPending]
    · exact h.statuses f hf (by simp [hold])

theorem consistent_pass {s : Store} (h : s.Consistent) (request : Request) (policy : Policy)
    (times : Times) : (pass s request policy times).2.Consistent := by
  rcases pass_cases s request policy times with ⟨-, hp⟩ | ⟨reason, -, hp⟩ | ⟨-, hp⟩ | ⟨-, -, hp⟩
  · rw [hp]
    exact h
  · rw [hp]
    exact h
  · rw [hp]
    exact h.of_rows rfl rfl
  · rw [hp]
    exact (consistent_passLinks h request policy).of_rows rfl rfl

end CrateTrace.Matching
