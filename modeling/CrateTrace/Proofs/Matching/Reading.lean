import CrateTrace.Proofs.Matching.Pass

/-!
# What is read after a pass

The links of a pass change nothing about the candidates, and nothing about functions that are not
`ok`. What is pending afterwards is what the pass left without a link.
-/

namespace CrateTrace.Matching

open Correlation Name Store

/-! ## Candidates -/

theorem requestCandidates_marked {s s' : Store} {marked : Row SourceColumns → Bool}
    (h : s'.sources = s.sources.modify fun r => r.value.mark (marked r)) (request : Request) :
    requestCandidates s' request = requestCandidates s request := by
  have hunit : ∀ unit, unitCandidates s' unit = unitCandidates s unit := by
    intro unit
    simp only [unitCandidates, h, Table.rows_modify, List.filter_map, List.filterMap_map]
    rfl
  exact List.flatMap_congr fun unit _ => hunit unit

theorem verdict_passLinks (s : Store) (request : Request) (policy : Policy) (f : BinaryColumns) :
    verdict (passLinks s request policy) request policy f = verdict s request policy f := by
  rw [verdict, verdict, requestCandidates_marked rfl]

/-- A candidate shows nothing of the mark of its source function. -/
theorem candidateOf_mark (crate : String) (r : Row SourceColumns) (matched : Bool) :
    (Row.mapM SourceColumns.function ⟨r.id, r.value.mark matched⟩).map (candidateOf? crate) =
      (Row.mapM SourceColumns.function r).map (candidateOf? crate) := by
  unfold Row.mapM SourceColumns.function SourceColumns.mark
  cases r.value.toFunctionColumns.function <;> rfl

/-- Also when the candidates cannot be read. -/
theorem candidates_marked {s s' : Store} {marked : Row SourceColumns → Bool}
    (h : s'.sources = s.sources.modify fun r => r.value.mark (marked r)) (request : Request) :
    candidates s' request = candidates s request := by
  have hunit : candidatesOf s' = candidatesOf s := by
    funext unit
    simp only [candidatesOf, sourceFunctions, sourcesOf, h, Table.rows_modify, List.filter_map]
    exact map_filterMap_mapM fun r _ => candidateOf_mark unit.name r _
  rw [candidates, candidates, hunit]

theorem candidates_passLinks (s : Store) (request : Request) (policy : Policy) :
    candidates (passLinks s request policy) request = candidates s request :=
  candidates_marked rfl request

/-! ## Functions -/

/-- Whether a pass leaves a pending function without a link. -/
def isLeft (s : Store) (request : Request) (policy : Policy) (f : BinaryColumns) : Bool :=
  ((verdict s request policy f).bind Outcome.source?).isNone

theorem isPending_relink_target (s : Store) (request : Request) (policy : Policy)
    (f : BinaryColumns) :
    isPending request.unit.name (f.relink (target s request policy f)) =
      (isPending request.unit.name f && isLeft s request policy f) := by
  by_cases hpending : isPending request.unit.name f
  · have hkind : isPending request.unit.name (f.relink (target s request policy f)) =
        (target s request policy f).isNone := by
      simp_all [isPending, BinaryColumns.relink]
    rw [hkind, target, if_pos hpending, hpending, Bool.true_and, isLeft]
  · rw [target, if_neg hpending, BinaryColumns.relink_matchedSource]
    simp [hpending]

theorem relink_target_of_isLeft {s : Store} {request : Request} {policy : Policy}
    {f : BinaryColumns} (hpending : isPending request.unit.name f)
    (hleft : isLeft s request policy f) : f.relink (target s request policy f) = f := by
  have hfree : f.matchedSource = none := by simp_all [isPending]
  rw [target, if_pos hpending, Option.isNone_iff_eq_none.1 hleft, ← hfree,
    BinaryColumns.relink_matchedSource]

/-- The functions that are pending after a pass are those that it left, as they were. -/
theorem pendingRows_passLinks (s : Store) (request : Request) (policy : Policy) :
    pendingRows (passLinks s request policy) request.unit.name =
      (pendingRows s request.unit.name).filter fun r => isLeft s request policy r.value := by
  rw [pendingRows, pendingRows, List.filter_filter]
  refine Table.filter_modify (fun r _ => ?_) fun r _ hr => ?_
  · rw [Bool.and_comm]
    exact isPending_relink_target s request policy r.value
  · obtain ⟨hleft, hpending⟩ := Bool.and_eq_true_iff.1 hr
    exact relink_target_of_isLeft hpending hleft

/-- A function has one status only. -/
theorem hasStatus_unique {c : FunctionColumns} {a b : Status} (ha : c.hasStatus a)
    (hb : c.hasStatus b) : a = b := by
  unfold FunctionColumns.hasStatus at ha hb
  cases hcell : c.status with
  | integer n =>
    rw [hcell] at ha hb
    have hcode : a.code = b.code := (beq_iff_eq.1 ha).symm.trans (beq_iff_eq.1 hb)
    have hsome := Status.ofCode_code a
    rw [hcode, Status.ofCode_code] at hsome
    exact (Option.some.inj hsome).symm
  | real x =>
    rw [hcell] at ha
    cases ha
  | text t =>
    rw [hcell] at ha
    cases ha

/-- The functions of a crate that are not `ok` are not changed by a pass. -/
theorem crateRows_passLinks (s : Store) (request : Request) (policy : Policy) (crate : String)
    {status : Status} (hstatus : status ≠ .ok) :
    ((passLinks s request policy).functions.rows.filter fun r =>
        r.value.crate == crate && r.value.hasStatus status) =
      s.functions.rows.filter fun r => r.value.crate == crate && r.value.hasStatus status := by
  refine Table.filter_modify (fun r _ => rfl) fun r _ hr => ?_
  have hpending : ¬ isPending request.unit.name r.value := by
    intro hpending
    have hok : r.value.hasStatus .ok := by simp_all [isPending]
    exact hstatus (hasStatus_unique (Bool.and_eq_true_iff.1 hr).2 hok)
  change r.value.relink (target s request policy r.value) = r.value
  rw [target, if_neg hpending, BinaryColumns.relink_matchedSource]

theorem crateFunctions_passLinks (s : Store) (request : Request) (policy : Policy) (crate : String)
    {status : Status} (hstatus : status ≠ .ok) :
    (passLinks s request policy).crateFunctions crate status = s.crateFunctions crate status :=
  congrArg functionsOf (crateRows_passLinks s request policy crate hstatus)

/-! ## All readings of a pass -/

theorem isOk_linkAll (s : Store) (request : Request) (policy : Policy) :
    (linkAll s request policy).isOk =
      ((candidates s request).isOk && (functionsOf (pendingRows s request.unit.name)).isOk &&
        (s.crateFunctions request.unit.name .unknownFormat).isOk) := by
  unfold linkAll
  change _ = ((candidates s request).isOk && (s.unmatchedFunctions request.unit.name).isOk &&
    (s.crateFunctions request.unit.name .unknownFormat).isOk)
  cases candidates s request with
  | error e => rfl
  | ok cs =>
    cases s.unmatchedFunctions request.unit.name with
    | error e => rfl
    | ok fs => cases s.crateFunctions request.unit.name .unknownFormat <;> rfl

/-- What a pass could read it can read again. -/
theorem isOk_linkAll_passLinks {s : Store} {request : Request} {policy : Policy}
    (h : (linkAll s request policy).isOk = true) :
    (linkAll (passLinks s request policy) request policy).isOk = true := by
  rw [isOk_linkAll, Bool.and_eq_true, Bool.and_eq_true] at h ⊢
  obtain ⟨⟨hcandidates, hpending⟩, hunparsed⟩ := h
  refine ⟨⟨?_, ?_⟩, ?_⟩
  · rwa [candidates_passLinks]
  · unfold functionsOf at hpending ⊢
    rw [isOk_mapM, List.all_eq_true] at hpending ⊢
    intro r hr
    rw [pendingRows_passLinks] at hr
    exact hpending r (List.mem_filter.1 hr).1
  · rwa [crateFunctions_passLinks s request policy request.unit.name (by decide)]

end CrateTrace.Matching
