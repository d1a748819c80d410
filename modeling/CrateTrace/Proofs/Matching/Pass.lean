import CrateTrace.Proofs.Matching.Verdicts

/-!
# What a pass does

The four ways in which a pass can end, each with its answer and the store that it leaves.
-/

namespace CrateTrace.Matching

open Correlation Name Store

/-! ## What the pass reads -/

theorem candidatesOf_ok {s : Store} {unit : CrateVersion} {cs : List Candidate}
    (h : candidatesOf s unit = .ok cs) : cs = unitCandidates s unit := by
  unfold candidatesOf at h
  cases hread : s.sourceFunctions unit with
  | error e =>
    rw [hread] at h
    cases h
  | ok sources =>
    rw [hread] at h
    cases h
    refine filterMap_eq_of_forall₂ (sourcesOf_ok hread) fun r f hf => ?_
    obtain ⟨hid, hname, hsignature⟩ := hf
    unfold candidateOf? structuralKeyOf
    rw [hid, hname, hsignature]
    cases parse r.value.fullName <;> rfl

theorem candidates_ok {s : Store} {request : Request} {cs : List Candidate}
    (h : candidates s request = .ok cs) : cs = requestCandidates s request := by
  unfold candidates at h
  cases hread : (request.unit :: request.extra).mapM (candidatesOf s) with
  | error e =>
    rw [hread] at h
    cases h
  | ok lists =>
    rw [hread] at h
    cases h
    have hlists : lists.map id = (request.unit :: request.extra).map (unitCandidates s) :=
      map_eq_of_forall₂ (forall₂_of_mapM hread) fun _ _ hunit => candidatesOf_ok hunit
    rw [requestCandidates, List.flatMap_def, ← hlists, List.map_id]

def pendingRows (s : Store) (crate : String) : List (Row BinaryColumns) :=
  s.functions.rows.filter fun r => isPending crate r.value

/-- How many functions of a crate are known to have a name that cannot be parsed. -/
def unparsedCount (s : Store) (crate : String) : Nat :=
  (s.functions.rows.filter fun r =>
    r.value.crate == crate && r.value.hasStatus .unknownFormat).countP
  fun r => !(parse r.value.fullName).isOk

theorem countUnparsed_eq (t : Summary) (fs : List (Row BinaryFunction)) :
    countUnparsed t fs =
      (List.replicate (fs.countP fun r => !(parse r.value.fullName).isOk) none).foldl Summary.add
        t := by
  unfold countUnparsed
  induction fs generalizing t with
  | nil => rfl
  | cons r fs ih =>
    rw [List.foldl_cons, ih]
    cases h : (parse r.value.fullName).isOk <;>
      simp [h, List.replicate_succ, Summary.add]

theorem countP_unparsed {s : Store} {crate : String} {fs : List (Row BinaryFunction)}
    (h : s.crateFunctions crate .unknownFormat = .ok fs) :
    (fs.countP fun r => !(parse r.value.fullName).isOk) = unparsedCount s crate := by
  have hseen := map_eq_of_forall₂ (g := fun r => !(parse r.value.fullName).isOk)
    (f := fun r => !(parse r.value.fullName).isOk) (functionsOf_ok h)
    fun r f hf => by simp only [hf.2.1]
  have hcount := congrArg (List.countP id) hseen
  rwa [List.countP_map, List.countP_map] at hcount

/-! ## The loop -/

/-- One step: the function is counted, and linked if the verdict names a source function. -/
theorem consider_eq (resolve : Probe → Outcome) (t : Summary) (s : Store)
    (r : Row BinaryFunction) :
    consider resolve (t, s) r =
      (t.add ((probeOf? t.unit.name r.value).map resolve),
        s.linkEach <| (((probeOf? t.unit.name r.value).map resolve).bind Outcome.source?).toList.map
          (r.id, ·)) := by
  cases hprobe : probeOf? t.unit.name r.value with
  | none => simp [consider, hprobe, Summary.add, linkEach]
  | some probe =>
    cases hresolve : resolve probe with
    | linked source basis =>
      simp [consider, hprobe, hresolve, Summary.add, Outcome.source?, linkEach]
    | unmatched reason => simp [consider, hprobe, hresolve, Summary.add, Outcome.source?, linkEach]

/-- The counts and the links of a pass do not depend on each other. -/
theorem foldl_consider (resolve : Probe → Outcome) (fs : List (Row BinaryFunction)) (t : Summary)
    (s : Store) :
    fs.foldl (consider resolve) (t, s) =
      ((fs.map fun r => (probeOf? t.unit.name r.value).map resolve).foldl Summary.add t,
        s.linkEach <| keyed fs fun r =>
          ((probeOf? t.unit.name r.value).map resolve).bind Outcome.source?) := by
  induction fs generalizing t s with
  | nil => rfl
  | cons r fs ih =>
    rw [List.foldl_cons, consider_eq, ih, Summary.unit_add, List.map_cons, List.foldl_cons,
      keyed_cons, linkEach_append]

def tally (s : Store) (request : Request) (policy : Policy) : Summary :=
  let verdicts := (pendingRows s request.unit.name).map fun r => verdict s request policy r.value
  let unparsed := unparsedCount s request.unit.name
  { unit := request.unit
    considered := verdicts.length + unparsed
    linkedByName := verdicts.countP isByName
    linkedBySignature := verdicts.countP isBySignature
    unmatched := verdicts.countP isUnmatched
    failures := verdicts.countP Option.isNone + unparsed }

def passLinks (s : Store) (request : Request) (policy : Policy) : Store :=
  s.relinked (fun r => target s request policy r.value)
    (fun r => isTarget s request policy r.id || r.value.matched)

/-- Linking the pending functions row by row. Links from one function do not hinder another, as no
number comes twice. -/
theorem linkEach_pending (s : Store) (request : Request) (policy : Policy) :
    s.linkEach (keyed (pendingRows s request.unit.name) fun r =>
      (verdict s request policy r.value).bind Outcome.source?) = passLinks s request policy := by
  have hnodup : ((pendingRows s request.unit.name).map Row.id).Nodup :=
    s.functions.ids_nodup.sublist (List.filter_sublist.map _)
  rw [linkEach_eq _ _ (hnodup.sublist (keys_sublist _ _))]
  apply relinked_congr
  · intro r hr
    by_cases hpending : isPending request.unit.name r.value
    · have hmem : r ∈ pendingRows s request.unit.name := List.mem_filter.2 ⟨hr, hpending⟩
      have hfree : r.value.matchedSource = none := by simp_all [isPending]
      rw [lookup_keyed hnodup _ hmem, target, if_pos hpending, hfree, Option.or_none]
    · have hgone : (keyed (pendingRows s request.unit.name) fun r =>
          (verdict s request policy r.value).bind Outcome.source?).lookup r.id = none := by
        rw [List.lookup_eq_none_iff]
        intro l hl
        obtain ⟨r', hr', heq⟩ := List.mem_map.1
          ((keys_sublist _ _).subset (List.mem_map_of_mem (f := Prod.fst) hl))
        have hne : r.id ≠ l.1 := by
          intro hid
          obtain ⟨hin, hp⟩ := List.mem_filter.1 hr'
          rw [s.functions.eq_of_id_eq hr hin (hid.trans heq.symm)] at hpending
          exact hpending hp
        simpa using hne
      rw [hgone, target, if_neg hpending, Option.none_or]
  · intro r _
    congr 1
    rw [any_keyed _ _ fun id => decide (r.id = id), pendingRows, List.any_filter, isTarget]
    congr 1
    funext f
    by_cases hpending : isPending request.unit.name f.value
    · simp only [hpending, target, if_pos, Bool.true_and]
      cases (verdict s request policy f.value).bind Outcome.source? <;>
        simp [eq_comm, beq_eq_decide]
    · simp [hpending]

/-- The loop over the functions that the pass reads. -/
theorem foldl_pending {s : Store} {request : Request} {policy : Policy} {cs : List Candidate}
    {fs : List (Row BinaryFunction)} (hcandidates : candidates s request = .ok cs)
    (hfunctions : s.unmatchedFunctions request.unit.name = .ok fs) :
    fs.foldl (consider (resolve policy.tieBreak cs)) (.start request.unit, s) =
      (((pendingRows s request.unit.name).map fun r => verdict s request policy r.value).foldl
          Summary.add (.start request.unit),
        passLinks s request policy) := by
  have hseen : ∀ (r : Row BinaryColumns) (f : Row BinaryFunction),
      f.id = r.id ∧ f.value.fullName = r.value.fullName ∧
        f.value.signature = r.value.signature →
      (probeOf? request.unit.name f.value).map (resolve policy.tieBreak cs) =
        verdict s request policy r.value := by
    rintro r f ⟨-, hname, hsignature⟩
    rw [probeOf_eq, hname, hsignature, candidates_ok hcandidates]
    rfl
  have hverdicts : fs.map (fun f =>
      (probeOf? request.unit.name f.value).map (resolve policy.tieBreak cs)) =
      (pendingRows s request.unit.name).map fun r => verdict s request policy r.value :=
    map_eq_of_forall₂ (functionsOf_ok hfunctions) hseen
  have hlinks : (keyed fs fun f =>
      ((probeOf? request.unit.name f.value).map (resolve policy.tieBreak cs)).bind
        Outcome.source?) =
      keyed (pendingRows s request.unit.name) fun r =>
        (verdict s request policy r.value).bind Outcome.source? :=
    filterMap_eq_of_forall₂ (functionsOf_ok hfunctions) fun r f hf => by
      simp only [hseen r f hf, hf.1]
  rw [foldl_consider]
  simp only [Summary.start, hverdicts, hlinks, linkEach_pending]

theorem linkAll_ok {s linked : Store} {request : Request} {policy : Policy} {summary : Summary}
    (h : linkAll s request policy = .ok (summary, linked)) :
    summary = tally s request policy ∧ linked = passLinks s request policy := by
  unfold linkAll at h
  cases hcandidates : candidates s request with
  | error e => simp [hcandidates, bind, Except.bind] at h
  | ok cs =>
    cases hfunctions : s.unmatchedFunctions request.unit.name with
    | error e => simp [hcandidates, hfunctions, bind, Except.bind] at h
    | ok fs =>
      cases hunparsed : s.crateFunctions request.unit.name .unknownFormat with
      | error e => simp [hcandidates, hfunctions, hunparsed, bind, Except.bind] at h
      | ok us =>
        simp only [hcandidates, hfunctions, hunparsed, bind, Except.bind, pure, Except.pure,
          foldl_pending hcandidates hfunctions, Except.ok.injEq, Prod.mk.injEq] at h
        obtain ⟨rfl, rfl⟩ := h
        refine ⟨?_, rfl⟩
        rw [countUnparsed_eq, countP_unparsed hunparsed]
        simp only [Summary.start, Summary.foldl_add]
        simp [tally, List.countP_replicate, isByName, isBySignature, isUnmatched]

/-! ## The four ways to end -/

def failsTooOften (s : Store) (request : Request) (policy : Policy) : Bool :=
  exceeds (tally s request policy).failures (tally s request policy).considered
    policy.maxFailureRatio

theorem pass_cases (s : Store) (request : Request) (policy : Policy) (times : Times) :
    (s.findCrate? request.unit = none ∧
      pass s request policy times = (.error (.unknownCrate request.unit), s)) ∨
    (∃ reason, linkAll s request policy = .error reason ∧
      pass s request policy times = (.error (.store reason), s)) ∨
    (failsTooOften s request policy = true ∧
      pass s request policy times =
        (.error (.tooManyFailures (tally s request policy).failures
          (tally s request policy).considered policy.maxFailureRatio),
          s.addRun ((tally s request policy).run .rolledBack times))) ∨
    (s.findCrate? request.unit ≠ none ∧ failsTooOften s request policy = false ∧
      pass s request policy times =
        (.ok (tally s request policy),
          (passLinks s request policy).addRun ((tally s request policy).run .committed times))) := by
  unfold pass
  cases hcrate : s.findCrate? request.unit with
  | none => simp
  | some row =>
    cases hlinks : linkAll s request policy with
    | error reason => simp
    | ok answer =>
      obtain ⟨summary, linked⟩ := answer
      obtain ⟨rfl, rfl⟩ := linkAll_ok hlinks
      cases hfails : failsTooOften s request policy with
      | true =>
        unfold failsTooOften at hfails
        simp [hfails]
      | false =>
        unfold failsTooOften at hfails
        simp [hfails]

theorem pass_of_unknown {s : Store} (request : Request) (policy : Policy)
    (h : s.findCrate? request.unit = none) (times : Times) :
    pass s request policy times = (.error (.unknownCrate request.unit), s) := by
  simp [pass, h]

theorem pass_of_unread {s : Store} (request : Request) {policy : Policy} {reason : StoreError}
    (hcrate : s.findCrate? request.unit ≠ none)
    (hreads : linkAll s request policy = .error reason) (times : Times) :
    pass s request policy times = (.error (.store reason), s) := by
  simp only [pass, Option.isNone_iff_eq_none, hcrate, if_false, hreads]

/-- A pass that can read what it needs only counts its failures. -/
theorem pass_of_reads {s : Store} (request : Request) {policy : Policy} {answer : Summary × Store}
    (hcrate : s.findCrate? request.unit ≠ none)
    (hreads : linkAll s request policy = .ok answer) (times : Times) :
    pass s request policy times =
      if failsTooOften s request policy then
        (.error (.tooManyFailures (tally s request policy).failures
          (tally s request policy).considered policy.maxFailureRatio),
          s.addRun ((tally s request policy).run .rolledBack times))
      else (.ok (tally s request policy),
        (passLinks s request policy).addRun ((tally s request policy).run .committed times)) := by
  obtain ⟨summary, linked⟩ := answer
  obtain ⟨rfl, rfl⟩ := linkAll_ok hreads
  simp only [pass, Option.isNone_iff_eq_none, hcrate, if_false, hreads]
  rfl

theorem pass_eq_of_toOption (s : Store) (request : Request) (policy : Policy) (times : Times)
    (summary : Summary) (h : (pass s request policy times).1.toOption = some summary) :
    pass s request policy times = (.ok summary, (pass s request policy times).2) := by
  cases hp : pass s request policy times with
  | mk answer s' =>
    rw [hp] at h
    cases answer with
    | error e => cases h
    | ok t =>
      cases h
      rfl

theorem pass_ok {s s' : Store} {request : Request} {policy : Policy} {times : Times}
    {summary : Summary} (h : pass s request policy times = (.ok summary, s')) :
    summary = tally s request policy ∧
      s' = (passLinks s request policy).addRun (summary.run .committed times) := by
  rcases pass_cases s request policy times with ⟨-, hp⟩ | ⟨reason, -, hp⟩ | ⟨-, hp⟩ | ⟨-, -, hp⟩
  · simp [hp] at h
  · simp [hp] at h
  · simp [hp] at h
  · rw [hp] at h
    cases h
    exact ⟨rfl, rfl⟩

end CrateTrace.Matching
