import CrateTrace.Proofs.Correlation.Repetition
import CrateTrace.Proofs.Matching.Repeat

/-!
# Crate versions that are named twice

Each time that a request names a crate version, its source functions are candidates once more. So
functions that were linked to them alone have several candidates, and their links are ties.
-/

namespace CrateTrace.Matching

open Correlation Name Store

variable {s : Store} {request : Request} {policy : Policy} {unit : CrateVersion}

def Request.addUnit (request : Request) (unit : CrateVersion) : Request :=
  { request with extra := request.extra ++ [unit] }

@[simp] theorem unit_addUnit (request : Request) (unit : CrateVersion) :
    (request.addUnit unit).unit = request.unit := rfl

/-- Whether a number is that of a source function of this crate version. -/
def leadsInto (s : Store) (unit : CrateVersion) (id : RowId) : Bool :=
  s.sources.rows.any fun r =>
    r.id == id && r.value.crate == unit.name && r.value.version == unit.version

/-! ## Candidates -/

theorem requestCandidates_addUnit (s : Store) (request : Request) (unit : CrateVersion) :
    requestCandidates s (request.addUnit unit) =
      requestCandidates s request ++ unitCandidates s unit := by
  simp [requestCandidates, Request.addUnit]

theorem mem_requestCandidates (hunit : unit ∈ request.unit :: request.extra) :
    ∀ c ∈ unitCandidates s unit, c ∈ requestCandidates s request :=
  fun _ hc => List.mem_flatMap.2 ⟨unit, hunit, hc⟩

theorem mem_unitCandidates {c : Candidate} :
    c ∈ unitCandidates s unit ↔ ∃ r ∈ s.sources.rows,
      (r.value.crate = unit.name ∧ r.value.version = unit.version ∧ r.value.hasStatus .ok) ∧
      ∃ d, parse r.value.fullName = .ok d ∧
        ⟨r.id, r.value.fullName, d.structuralKey (some unit.name),
          r.value.signature.bind validSignature?⟩ = c := by
  unfold unitCandidates
  rw [List.mem_filterMap]
  refine exists_congr fun r => ?_
  rw [List.mem_filter, and_assoc]
  refine and_congr_right fun _ => and_congr (by simp [and_assoc]) ?_
  cases parse r.value.fullName <;> simp

/-- The number of a candidate tells its crate version and all else of it. -/
theorem unitCandidates_inj {unit' : CrateVersion} {c d : Candidate}
    (hc : c ∈ unitCandidates s unit) (hd : d ∈ unitCandidates s unit') (hid : c.id = d.id) :
    unit = unit' ∧ c = d := by
  obtain ⟨r, hr, ⟨hname, hversion, -⟩, e, he, rfl⟩ := mem_unitCandidates.1 hc
  obtain ⟨r', hr', ⟨hname', hversion', -⟩, e', he', rfl⟩ := mem_unitCandidates.1 hd
  obtain rfl := s.sources.eq_of_id_eq hr hr' hid
  have hunit : unit = unit' := by
    cases unit
    cases unit'
    simp_all
  rw [he] at he'
  cases he'
  rw [hunit]
  exact ⟨rfl, rfl⟩

theorem any_unitCandidates {unit' : CrateVersion} {c : Candidate}
    (hc : c ∈ unitCandidates s unit') :
    ((unitCandidates s unit).any fun d => d.id == c.id) = leadsInto s unit c.id := by
  rw [Bool.eq_iff_iff, leadsInto, List.any_eq_true, List.any_eq_true]
  constructor
  · rintro ⟨d, hd, hid⟩
    obtain ⟨r, hr, ⟨hname, hversion, -⟩, e, -, rfl⟩ := mem_unitCandidates.1 hd
    exact ⟨r, hr, by simp_all⟩
  · rintro ⟨r, hr, hmatch⟩
    obtain ⟨r', hr', ⟨hname, hversion, -⟩, e, -, rfl⟩ := mem_unitCandidates.1 hc
    obtain ⟨⟨hid, hcrate⟩, hrelease⟩ : (r.id = r'.id ∧ r.value.crate = unit.name) ∧
        r.value.version = unit.version := by simpa using hmatch
    obtain rfl := s.sources.eq_of_id_eq hr hr' hid
    have hunit : unit' = unit := by
      cases unit
      cases unit'
      simp_all
    exact ⟨_, hunit ▸ hc, beq_self_eq_true _⟩

/-! ## Verdicts -/

theorem weakens_resolve_addUnit (hunit : unit ∈ request.unit :: request.extra)
    (tieBreak : TieBreak) (probe : Probe) :
    Weakens tieBreak (leadsInto s unit) (resolve tieBreak (requestCandidates s request) probe)
      (resolve tieBreak (requestCandidates s (request.addUnit unit)) probe) := by
  rw [requestCandidates_addUnit]
  refine (resolve_repeats (repeats_append (mem_requestCandidates hunit)) ?_).congr ?_
  · intro c hc d hd hid
    obtain ⟨unit', -, hc⟩ := List.mem_flatMap.1 hc
    exact (unitCandidates_inj hc hd hid).2
  · intro id hid
    obtain ⟨c, hc, rfl⟩ := source_resolve hid
    obtain ⟨unit', -, hc⟩ := List.mem_flatMap.1 hc
    exact any_unitCandidates hc

theorem weakens_verdict (hunit : unit ∈ request.unit :: request.extra) (f : BinaryColumns) :
    Option.Rel (Weakens policy.tieBreak (leadsInto s unit)) (verdict s request policy f)
      (verdict s (request.addUnit unit) policy f) := by
  unfold verdict
  rw [unit_addUnit]
  cases probe? request.unit.name f.fullName f.signature with
  | none => exact .none
  | some probe => exact .some (weakens_resolve_addUnit hunit policy.tieBreak probe)

section Weakened

variable {tieBreak : TieBreak} {again : RowId → Bool} {v v' : Option Outcome}

/-- A link that is made again and counted as before. -/
def IsKept (tieBreak : TieBreak) (again : RowId → Bool) (v : Option Outcome) : Prop :=
  ∀ id basis, v = some (.linked id basis) → again id = true →
    tieBreak = .lexicographicallySmallest ∧ basis ≠ .name

theorem isNone_weakened (h : Option.Rel (Weakens tieBreak again) v v') :
    v'.isNone = v.isNone := by
  cases h <;> rfl

theorem source_weakened (h : Option.Rel (Weakens tieBreak again) v v') :
    v'.bind Outcome.source? =
      if tieBreak = .leaveUnmatched then (v.bind Outcome.source?).filter fun id => !again id
      else v.bind Outcome.source? := by
  cases h with
  | none => simp
  | some h => cases h <;> simp_all [Outcome.source?, Option.filter]

theorem isByName_weakened (h : Option.Rel (Weakens tieBreak again) v v') (hv' : isByName v') :
    isByName v := by
  cases h with
  | none => exact hv'
  | some h => cases h <;> simp_all [isByName]

theorem not_isByName_weakened (h : Option.Rel (Weakens tieBreak again) v v') {id : RowId}
    (hv : v = some (.linked id .name)) (hagain : again id = true) : ¬ isByName v' := by
  cases h with
  | none => cases hv
  | some h => cases h <;> simp_all [isByName]

theorem counts_kept (h : Option.Rel (Weakens tieBreak again) v v')
    (hkept : IsKept tieBreak again v) :
    isByName v' = isByName v ∧ isBySignature v' = isBySignature v ∧
      isUnmatched v' = isUnmatched v := by
  cases h with
  | none => exact ⟨rfl, rfl, rfl⟩
  | some h =>
    cases h with
    | keeps new => exact ⟨rfl, rfl, rfl⟩
    | unmatched => exact ⟨rfl, rfl, rfl⟩
    | leaves copied leaves => cases leaves.symm.trans (hkept _ _ rfl copied).1
    | @ties id basis copied decides =>
      cases basis with
      | name => exact absurd rfl (hkept _ _ rfl copied).2
      | signature => exact ⟨rfl, rfl, rfl⟩
      | tieBreak => exact ⟨rfl, rfl, rfl⟩

theorem source_kept (h : Option.Rel (Weakens tieBreak again) v v')
    (hkept : IsKept tieBreak again v) : v'.bind Outcome.source? = v.bind Outcome.source? := by
  cases h with
  | none => rfl
  | some h =>
    cases h with
    | leaves copied leaves => cases leaves.symm.trans (hkept _ _ rfl copied).1
    | _ => rfl

end Weakened

/-! ## Counts -/

/-- Every link that a pass makes into a crate version is made again as a tie-break, and was not
counted as one by name. -/
def KeepsLinks (s : Store) (request : Request) (policy : Policy) (unit : CrateVersion) : Prop :=
  ∀ r ∈ pendingRows s request.unit.name, ∀ id basis,
    verdict s request policy r.value = some (.linked id basis) → leadsInto s unit id = true →
      policy.tieBreak = .lexicographicallySmallest ∧ basis ≠ .name

/-- Of two conditions with the same count the weaker one holds no more often. -/
theorem of_countP_eq {α : Type} {p q : α → Bool} {xs : List α} (h : ∀ x, p x → q x)
    (hcount : xs.countP p = xs.countP q) : ∀ x ∈ xs, q x → p x := by
  rw [List.countP_eq_length_filter, List.countP_eq_length_filter] at hcount
  have hsame := (List.monotone_filter_right xs h).eq_of_length hcount
  intro x hx hq
  have hmem : x ∈ xs.filter p := hsame ▸ List.mem_filter.2 ⟨hx, hq⟩
  exact (List.mem_filter.1 hmem).2

/-- Names that cannot be parsed fail whoever the candidates are. -/
theorem failures_addUnit (s : Store) (policy : Policy)
    (hunit : unit ∈ request.unit :: request.extra) :
    (tally s (request.addUnit unit) policy).considered = (tally s request policy).considered ∧
      (tally s (request.addUnit unit) policy).failures = (tally s request policy).failures := by
  refine ⟨by simp [tally, Request.addUnit], ?_⟩
  unfold tally
  exact congrArg (· + _) (countP_map_congr fun r _ =>
    isNone_weakened (weakens_verdict hunit r.value))

theorem failsTooOften_addUnit (s : Store) (policy : Policy)
    (hunit : unit ∈ request.unit :: request.extra) :
    failsTooOften s (request.addUnit unit) policy = failsTooOften s request policy := by
  obtain ⟨hconsidered, hfailures⟩ := failures_addUnit s policy hunit
  rw [failsTooOften, hconsidered, hfailures, failsTooOften]

theorem tally_addUnit_of_kept (hunit : unit ∈ request.unit :: request.extra)
    (hkept : KeepsLinks s request policy unit) :
    tally s (request.addUnit unit) policy = tally s request policy := by
  obtain ⟨hconsidered, hfailures⟩ := failures_addUnit s policy hunit
  have hcounts : ∀ r ∈ pendingRows s request.unit.name,
      let v' := verdict s (request.addUnit unit) policy r.value
      let v := verdict s request policy r.value
      isByName v' = isByName v ∧ isBySignature v' = isBySignature v ∧
        isUnmatched v' = isUnmatched v :=
    fun r hr => counts_kept (weakens_verdict hunit r.value) (hkept r hr)
  rw [Summary.mk.injEq]
  exact ⟨rfl, hconsidered, countP_map_congr fun r hr => (hcounts r hr).1,
    countP_map_congr fun r hr => (hcounts r hr).2.1,
    countP_map_congr fun r hr => (hcounts r hr).2.2, hfailures⟩

/-- A link by name is not counted as one any more. -/
theorem linkedByName_addUnit (hunit : unit ∈ request.unit :: request.extra)
    (hcount : (tally s (request.addUnit unit) policy).linkedByName =
      (tally s request policy).linkedByName)
    {r : Row BinaryColumns} (hr : r ∈ pendingRows s request.unit.name) {id : RowId}
    (hv : verdict s request policy r.value = some (.linked id .name)) :
    leadsInto s unit id = false := by
  have hcount' : (pendingRows s request.unit.name).countP
        (fun r => isByName (verdict s (request.addUnit unit) policy r.value)) =
      (pendingRows s request.unit.name).countP
        (fun r => isByName (verdict s request policy r.value)) := by
    simp only [tally, List.countP_map] at hcount
    exact hcount
  have hweaker : ∀ r : Row BinaryColumns,
      isByName (verdict s (request.addUnit unit) policy r.value) →
        isByName (verdict s request policy r.value) :=
    fun r => isByName_weakened (weakens_verdict hunit r.value)
  have hstill := of_countP_eq hweaker hcount' r hr (by rw [hv]; rfl)
  by_contra hinto
  exact not_isByName_weakened (weakens_verdict hunit r.value) hv (by simpa using hinto) hstill

/-! ## Links -/

theorem target_addUnit (hunit : unit ∈ request.unit :: request.extra) (f : BinaryColumns) :
    target s (request.addUnit unit) policy f =
      if isPending request.unit.name f ∧ policy.tieBreak = .leaveUnmatched then
        (target s request policy f).filter fun id => !leadsInto s unit id
      else target s request policy f := by
  unfold target
  by_cases hpending : isPending request.unit.name f
  · simp only [unit_addUnit, hpending, if_true, true_and]
    exact source_weakened (weakens_verdict hunit f)
  · simp [hpending]

theorem passLinks_addUnit_of_target
    (h : ∀ r ∈ s.functions.rows, target s (request.addUnit unit) policy r.value =
      target s request policy r.value) :
    passLinks s (request.addUnit unit) policy = passLinks s request policy := by
  apply relinked_congr h
  intro r _
  congr 1
  rw [Bool.eq_iff_iff, isTarget, isTarget, List.any_eq_true, List.any_eq_true]
  refine exists_congr fun f => and_congr_right fun hf => ?_
  rw [h f hf]
  rfl

theorem target_addUnit_of_kept (hunit : unit ∈ request.unit :: request.extra)
    (hkept : KeepsLinks s request policy unit) {r : Row BinaryColumns}
    (hr : r ∈ s.functions.rows) :
    target s (request.addUnit unit) policy r.value = target s request policy r.value := by
  by_cases hpending : isPending request.unit.name r.value
  · have hmem : r ∈ pendingRows s request.unit.name := List.mem_filter.2 ⟨hr, hpending⟩
    rw [target, target, unit_addUnit, if_pos hpending, if_pos hpending]
    exact source_kept (weakens_verdict hunit r.value) (hkept r hmem)
  · rw [target_addUnit hunit, if_neg (by simp [hpending])]

/-! ## Readings -/

/-- What has been read once can be read again. -/
theorem candidates_addUnit (hunit : unit ∈ request.unit :: request.extra) :
    candidates s (request.addUnit unit) =
      (candidates s request).map fun cs => cs ++ unitCandidates s unit := by
  have hmore : candidates s (request.addUnit unit) =
      (((request.unit :: request.extra) ++ [unit]).mapM (candidatesOf s)).map List.flatten := rfl
  rw [hmore, List.mapM_append, candidates]
  cases hread : (request.unit :: request.extra).mapM (candidatesOf s) with
  | error e => rfl
  | ok lists =>
    have hall : ((request.unit :: request.extra).mapM (candidatesOf s)).isOk = true := by
      rw [hread]
      rfl
    rw [isOk_mapM, List.all_eq_true] at hall
    have hlast := hall unit hunit
    cases hagain : candidatesOf s unit with
    | error e =>
      rw [hagain] at hlast
      cases hlast
    | ok cs =>
      rw [← candidatesOf_ok hagain]
      simp [hagain, bind, Except.bind, pure, Except.pure, Except.map]

theorem linkAll_addUnit (s : Store) (policy : Policy)
    (hunit : unit ∈ request.unit :: request.extra) :
    match linkAll s request policy with
    | .error reason => linkAll s (request.addUnit unit) policy = .error reason
    | .ok _ => ∃ linked, linkAll s (request.addUnit unit) policy = .ok linked := by
  unfold linkAll
  rw [candidates_addUnit hunit, unit_addUnit]
  cases candidates s request with
  | error e => rfl
  | ok cs =>
    cases s.unmatchedFunctions request.unit.name with
    | error e => rfl
    | ok fs =>
      cases s.crateFunctions request.unit.name .unknownFormat with
      | error e => rfl
      | ok us => exact ⟨_, rfl⟩

/-! ## The pass -/

theorem passLinks_addUnit_of_least (hunit : unit ∈ request.unit :: request.extra)
    (hleast : policy.tieBreak = .lexicographicallySmallest) :
    passLinks s (request.addUnit unit) policy = passLinks s request policy :=
  passLinks_addUnit_of_target fun r _ => by rw [target_addUnit hunit, if_neg (by simp [hleast])]

theorem unchanged_iff (hunit : unit ∈ request.unit :: request.extra) :
    (tally s (request.addUnit unit) policy = tally s request policy ∧
      (passLinks s (request.addUnit unit) policy).functions =
        (passLinks s request policy).functions ∧
      (passLinks s (request.addUnit unit) policy).sources =
        (passLinks s request policy).sources) ↔ KeepsLinks s request policy unit := by
  constructor
  · rintro ⟨htally, hfunctions, -⟩ r hr id basis hv hinto
    refine ⟨?_, ?_⟩
    · by_contra hleaves
      have hleave : policy.tieBreak = .leaveUnmatched := by
        cases hpolicy : policy.tieBreak with
        | leaveUnmatched => rfl
        | lexicographicallySmallest => exact absurd hpolicy hleaves
      obtain ⟨hrow, hpending⟩ := List.mem_filter.1 hr
      have htarget : target s request policy r.value = some id := by
        rw [target, if_pos hpending, hv]
        rfl
      have hsame : target s (request.addUnit unit) policy r.value =
          target s request policy r.value :=
        congrArg BinaryColumns.matchedSource (Table.eq_of_modify_eq hfunctions r hrow)
      rw [target_addUnit hunit, if_pos ⟨hpending, hleave⟩, htarget] at hsame
      simp [hinto] at hsame
    · rintro rfl
      rw [linkedByName_addUnit hunit (congrArg Summary.linkedByName htally) hr hv] at hinto
      cases hinto
  · intro hkept
    have hlinks : passLinks s (request.addUnit unit) policy = passLinks s request policy :=
      passLinks_addUnit_of_target fun r hr => target_addUnit_of_kept hunit hkept hr
    rw [hlinks]
    exact ⟨tally_addUnit_of_kept hunit hkept, rfl, rfl⟩

/-- With a crate version that is named once more, a pass fails as before or succeeds as before, and
considers the same functions. Of the links those that lead into that crate version are missing where
ties are left. All is as before just when no link into it is counted otherwise. -/
theorem pass_addUnit {s s' : Store} {request : Request} {policy : Policy} {times : Times}
    {unit : CrateVersion} {answer : Except PassError Summary}
    (hunit : unit ∈ request.unit :: request.extra)
    (h : pass s request policy times = (answer, s')) :
    match answer with
    | .error e => ∃ left, pass s (request.addUnit unit) policy times = (.error e, left) ∧
        left.functions = s'.functions ∧ left.sources = s'.sources
    | .ok summary => ∃ summary' left,
        pass s (request.addUnit unit) policy times = (.ok summary', left) ∧
        summary'.considered = summary.considered ∧ summary'.failures = summary.failures ∧
        left.functions = s.functions.modify (fun r => r.value.relink <|
          if isPending request.unit.name r.value ∧ policy.tieBreak = .leaveUnmatched then
            (target s request policy r.value).filter fun id => !leadsInto s unit id
          else target s request policy r.value) ∧
        (policy.tieBreak = .lexicographicallySmallest →
          left.functions = s'.functions ∧ left.sources = s'.sources) ∧
        ((summary' = summary ∧ left.functions = s'.functions ∧ left.sources = s'.sources) ↔
          KeepsLinks s request policy unit) := by
  by_cases hcrate : s.findCrate? request.unit = none
  · rw [pass_of_unknown request policy hcrate] at h
    cases h
    exact ⟨s, pass_of_unknown (request.addUnit unit) policy hcrate times, rfl, rfl⟩
  have hreads := linkAll_addUnit s policy hunit
  cases hlinks : linkAll s request policy with
  | error reason =>
    rw [hlinks] at hreads
    rw [pass_of_unread request hcrate hlinks] at h
    cases h
    exact ⟨s, pass_of_unread (request.addUnit unit) hcrate hreads times, rfl, rfl⟩
  | ok linked =>
    rw [hlinks] at hreads
    obtain ⟨linked', hagain⟩ := hreads
    have hpass := pass_of_reads (request.addUnit unit) hcrate hagain times
    rw [failsTooOften_addUnit s policy hunit] at hpass
    rw [pass_of_reads request hcrate hlinks] at h
    obtain ⟨hconsidered, hfailures⟩ := failures_addUnit s policy hunit
    by_cases hfails : failsTooOften s request policy
    · rw [if_pos hfails] at h hpass
      cases h
      rw [hconsidered, hfailures] at hpass
      exact ⟨_, hpass, rfl, rfl⟩
    · rw [if_neg hfails] at h hpass
      cases h
      refine ⟨_, _, hpass, hconsidered, hfailures, ?_, ?_, unchanged_iff hunit⟩
      · exact Table.modify_congr fun r _ => congrArg r.value.relink (target_addUnit hunit r.value)
      · intro hleast
        have hsame := passLinks_addUnit_of_least (s := s) hunit hleast
        exact ⟨congrArg (·.functions) hsame, congrArg (·.sources) hsame⟩

/-- The function that was linked by its name is left, since two candidates have it. -/
theorem pass_addUnit_sample :
    ∃ summary left,
      pass sampleStore (sampleRequest.addUnit ⟨"app", "1"⟩) ⟨0.5, .leaveUnmatched⟩ ⟨"now", "then"⟩ =
        (.ok summary, left) ∧
      summary.considered = 3 ∧ summary.failures = 1 ∧
      left.functions.rows.map (·.value.matchedSource) = [none, none, none] ∧
      ¬ KeepsLinks sampleStore sampleRequest ⟨0.5, .leaveUnmatched⟩ ⟨"app", "1"⟩ := by
  have h := pass_eq_of_toOption sampleStore sampleRequest ⟨0.5, .leaveUnmatched⟩ ⟨"now", "then"⟩
    ⟨⟨"app", "1"⟩, 3, 1, 0, 1, 1⟩ (by decide +kernel)
  have hunit : ⟨"app", "1"⟩ ∈ sampleRequest.unit :: sampleRequest.extra := List.mem_cons_self
  obtain ⟨summary, left, hpass, hconsidered, hfailures, hfunctions, -, hsame⟩ :=
    pass_addUnit hunit h
  have hleft : left.functions.rows.map (·.value.matchedSource) = [none, none, none] := by
    rw [hfunctions]
    decide +kernel
  refine ⟨summary, left, hpass, hconsidered, hfailures, hleft, fun hkept => ?_⟩
  obtain ⟨-, hlinks, -⟩ := hsame.2 hkept
  rw [hlinks] at hleft
  revert hleft
  decide +kernel

/-- What a request names is no set: with a name that comes twice a link is lost. -/
theorem pass_addUnit_differs :
    ¬ ∀ (s : Store) (request : Request) (policy : Policy) (times : Times) (unit : CrateVersion),
      unit ∈ request.unit :: request.extra →
      (pass s (request.addUnit unit) policy times).1 = (pass s request policy times).1 ∧
      (pass s (request.addUnit unit) policy times).2.functions =
        (pass s request policy times).2.functions ∧
      (pass s (request.addUnit unit) policy times).2.sources =
        (pass s request policy times).2.sources := by
  intro hall
  obtain ⟨hanswer, -, -⟩ := hall sampleStore sampleRequest ⟨0.5, .leaveUnmatched⟩ ⟨"now", "then"⟩
    ⟨"app", "1"⟩ List.mem_cons_self
  have hcounts := congrArg (fun answer => answer.toOption.map Summary.linkedByName) hanswer
  revert hcounts
  decide +kernel

end CrateTrace.Matching
