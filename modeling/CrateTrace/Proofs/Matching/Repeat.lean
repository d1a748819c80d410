import CrateTrace.Proofs.Matching.Committed
import CrateTrace.Proofs.Matching.Reading

/-!
# Repeated passes

A pass that is made again comes to the same verdict about each function that it left, so that it
links none. But fewer functions are left than there were, and those with names that cannot be parsed
weigh more among them.
-/

namespace CrateTrace.Matching

open Correlation Name Store

/-! ## Counts -/

/-- What a pass comes to when it is made again. -/
def Summary.again (t : Summary) : Summary :=
  { t with considered := t.unmatched + t.failures, linkedByName := 0, linkedBySignature := 0 }

/-- Without the verdicts that link something only these two kinds are left. -/
theorem countP_left (vs : List (Option Outcome)) :
    let left := vs.filter fun v => (v.bind Outcome.source?).isNone
    left.countP isByName = 0 ∧ left.countP isBySignature = 0 ∧
      left.countP isUnmatched = vs.countP isUnmatched ∧
      left.countP Option.isNone = vs.countP Option.isNone := by
  induction vs with
  | nil => exact ⟨rfl, rfl, rfl, rfl⟩
  | cons v vs ih =>
    rcases v with _ | ⟨_, _ | _ | _⟩ | _ <;>
      simpa [List.filter_cons, List.countP_cons, isByName, isBySignature, isUnmatched,
        Outcome.source?] using ih

theorem tally_passLinks (s : Store) (request : Request) (policy : Policy) :
    tally (passLinks s request policy) request policy = (tally s request policy).again := by
  have hverdicts : ((pendingRows (passLinks s request policy) request.unit.name).map fun r =>
      verdict (passLinks s request policy) request policy r.value) =
      ((pendingRows s request.unit.name).map fun r => verdict s request policy r.value).filter
        fun v => (v.bind Outcome.source?).isNone := by
    simp only [verdict_passLinks, pendingRows_passLinks, List.filter_map]
    rfl
  have hunparsed : unparsedCount (passLinks s request policy) request.unit.name =
      unparsedCount s request.unit.name := by
    rw [unparsedCount, crateRows_passLinks s request policy request.unit.name (by decide),
      unparsedCount]
  obtain ⟨hname, hsignature, hunmatched, hnone⟩ := countP_left
    ((pendingRows s request.unit.name).map fun r => verdict s request policy r.value)
  simp only [tally, hverdicts, hunparsed, Summary.again, length_eq_countP, hname, hsignature,
    hunmatched, hnone, Summary.mk.injEq, true_and, and_true]
  omega

/-! ## Links -/

theorem target_passLinks (s : Store) (request : Request) (policy : Policy)
    {r : Row BinaryColumns} (hr : r ∈ (passLinks s request policy).functions.rows) :
    target (passLinks s request policy) request policy r.value = r.value.matchedSource := by
  unfold target
  split
  · rename_i hpending
    have hleft : r ∈ pendingRows (passLinks s request policy) request.unit.name :=
      List.mem_filter.2 ⟨hr, hpending⟩
    rw [pendingRows_passLinks] at hleft
    have hfree : r.value.matchedSource = none := by simp_all [isPending]
    rw [verdict_passLinks, hfree]
    exact Option.isNone_iff_eq_none.1 (List.mem_filter.1 hleft).2
  · rfl

theorem isTarget_passLinks (s : Store) (request : Request) (policy : Policy) (id : RowId) :
    isTarget (passLinks s request policy) request policy id = false := by
  rw [isTarget, List.any_eq_false]
  intro r hr hlink
  obtain ⟨hpending, htarget⟩ := Bool.and_eq_true_iff.1 hlink
  rw [target_passLinks s request policy hr] at htarget
  simp_all [isPending]

theorem passLinks_passLinks (s : Store) (request : Request) (policy : Policy) :
    passLinks (passLinks s request policy) request policy = passLinks s request policy := by
  conv_rhs => rw [← relinked_self (passLinks s request policy)]
  apply relinked_congr
  · exact fun r hr => target_passLinks s request policy hr
  · intro r _
    rw [isTarget_passLinks, Bool.false_or]

/-! ## The second pass -/

/-- A pass that succeeds knows its crate version and can read what it needs. -/
theorem reads_of_pass {s s' : Store} {request : Request} {policy : Policy} {times : Times}
    {summary : Summary} (h : pass s request policy times = (.ok summary, s')) :
    s.findCrate? request.unit ≠ none ∧ (linkAll s request policy).isOk = true := by
  unfold pass at h
  cases hcrate : s.findCrate? request.unit with
  | none => simp [hcrate] at h
  | some row =>
    cases hlinks : linkAll s request policy with
    | error reason => simp [hcrate, hlinks] at h
    | ok answer => exact ⟨by simp, rfl⟩

/-- A pass with nothing to link notes its run, and so it does if it is refused. -/
theorem pass_again {s s' : Store} {request : Request} {policy : Policy} {times : Times}
    {summary : Summary} (h : pass s request policy times = (.ok summary, s')) (later : Times) :
    pass s' request policy later =
      if exceeds summary.again.failures summary.again.considered policy.maxFailureRatio then
        (.error (.tooManyFailures summary.again.failures summary.again.considered
          policy.maxFailureRatio), s'.addRun (summary.again.run .rolledBack later))
      else (.ok summary.again, s'.addRun (summary.again.run .committed later)) := by
  obtain ⟨hcrate, hreads⟩ := reads_of_pass h
  obtain ⟨rfl, rfl⟩ := pass_ok h
  generalize hrun : (tally s request policy).run .committed times = run
  have htally : tally ((passLinks s request policy).addRun run) request policy =
      (tally s request policy).again := tally_passLinks s request policy
  have hlinks : passLinks ((passLinks s request policy).addRun run) request policy =
      (passLinks s request policy).addRun run :=
    congrArg (fun t : Store => t.addRun run) (passLinks_passLinks s request policy)
  -- The crate version is still there, and what the first pass could read can still be read.
  rcases pass_cases ((passLinks s request policy).addRun run) request policy later with
    ⟨hnone, -⟩ | ⟨reason, hreason, -⟩ | ⟨hfails, hp⟩ | ⟨-, hfails, hp⟩
  · exact absurd hnone hcrate
  · have hagain := isOk_linkAll_passLinks hreads
    have hsame : (linkAll ((passLinks s request policy).addRun run) request policy).isOk =
        (linkAll (passLinks s request policy) request policy).isOk := by
      rw [isOk_linkAll, isOk_linkAll]
      rfl
    rw [hreason, hagain] at hsame
    cases hsame
  · rw [failsTooOften, htally] at hfails
    rw [hp, htally, if_pos hfails]
  · rw [failsTooOften, htally] at hfails
    rw [hp, htally, hlinks, if_neg (by simp [hfails])]

/-- Links and marks stay as they are when a pass is made again at once. It links nothing, and
succeeds unless too many of the functions that are left have names that cannot be parsed. -/
theorem repeated_pass {s s' : Store} {request : Request} {policy : Policy} {times : Times}
    {summary : Summary} (h : pass s request policy times = (.ok summary, s')) (later : Times) :
    (pass s' request policy later).1 =
        (if exceeds summary.failures (summary.unmatched + summary.failures)
            policy.maxFailureRatio then
          .error (.tooManyFailures summary.failures (summary.unmatched + summary.failures)
            policy.maxFailureRatio)
        else .ok { summary with
          considered := summary.unmatched + summary.failures
          linkedByName := 0
          linkedBySignature := 0 }) ∧
      (pass s' request policy later).2.functions = s'.functions ∧
      (pass s' request policy later).2.sources = s'.sources ∧
      (pass s' request policy later).2.crates = s'.crates ∧
      (pass s' request policy later).2.binaries = s'.binaries := by
  rw [pass_again h later]
  by_cases hfails : exceeds summary.again.failures summary.again.considered policy.maxFailureRatio
  · rw [if_pos hfails]
    exact ⟨(if_pos hfails).symm, rfl, rfl, rfl, rfl⟩
  · rw [if_neg hfails]
    exact ⟨(if_neg hfails).symm, rfl, rfl, rfl, rfl⟩

/-- Three functions the first time, and two the second. -/
theorem repeated_pass_sample :
    ∃ s', pass sampleStore sampleRequest ⟨0.5, .leaveUnmatched⟩ ⟨"now", "then"⟩ =
        (.ok ⟨⟨"app", "1"⟩, 3, 1, 0, 1, 1⟩, s') ∧
      (pass s' sampleRequest ⟨0.5, .leaveUnmatched⟩ ⟨"later", "at last"⟩).1 =
        .ok ⟨⟨"app", "1"⟩, 2, 0, 0, 1, 1⟩ := by
  have h := pass_eq_of_toOption sampleStore sampleRequest ⟨0.5, .leaveUnmatched⟩ ⟨"now", "then"⟩
    ⟨⟨"app", "1"⟩, 3, 1, 0, 1, 1⟩ (by decide +kernel)
  refine ⟨_, h, ?_⟩
  obtain ⟨hanswer, -⟩ := repeated_pass h ⟨"later", "at last"⟩
  exact hanswer.trans (if_neg (by decide +kernel))

/-- With the names that can be parsed and were linked out of the way, the same number of failures
may be too many. -/
theorem repeated_pass_refused :
    ¬ ∀ (s s' : Store) (request : Request) (policy : Policy) (times later : Times)
      (summary : Summary), pass s request policy times = (.ok summary, s') →
      ∃ summary' s'', pass s' request policy later = (.ok summary', s'') ∧
        summary'.linkedByName = 0 ∧ summary'.linkedBySignature = 0 ∧
        s''.functions = s'.functions ∧ s''.sources = s'.sources := by
  intro hall
  have h := pass_eq_of_toOption sampleStore sampleRequest ⟨0.4, .leaveUnmatched⟩ ⟨"now", "then"⟩
    ⟨⟨"app", "1"⟩, 3, 1, 0, 1, 1⟩ (by decide +kernel)
  obtain ⟨summary', s'', hagain, -⟩ := hall _ _ _ _ _ ⟨"later", "at last"⟩ _ h
  rw [pass_again h ⟨"later", "at last"⟩, if_pos (by decide +kernel)] at hagain
  cases hagain

end CrateTrace.Matching
