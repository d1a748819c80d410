import CrateTrace.Proofs.Matching.Rollback

/-!
# Passes of different crates

A pass reads crate versions, source functions but for their marks, and the functions of its own
crate. It writes marks, and links of its own crate. So passes of two crates do not notice each other.
-/

namespace CrateTrace.Matching

open Correlation Name Store

variable {s s' : Store} {request : Request}

/-! ## What a pass can see -/

/-- A pass over the functions of this crate reads the same in both stores. -/
structure Alike (crate : String) (s s' : Store) : Prop where
  crates : s'.crates = s.crates
  sources : ∃ marked : Row SourceColumns → Bool,
    s'.sources = s.sources.modify fun r => r.value.mark (marked r)
  functions : s'.functions.rows.filter (·.value.crate == crate) =
    s.functions.rows.filter (·.value.crate == crate)

theorem Alike.self (crate : String) (s : Store) : Alike crate s s :=
  ⟨rfl, ⟨fun r => r.value.matched, (Table.modify_id s.sources).symm⟩, rfl⟩

theorem Alike.filter_eq {crate : String} (h : Alike crate s s') {p : Row BinaryColumns → Bool}
    (hp : ∀ r, p r = true → r.value.crate = crate) :
    s'.functions.rows.filter p = s.functions.rows.filter p := by
  have hsplit : ∀ rows : List (Row BinaryColumns),
      rows.filter p = (rows.filter (·.value.crate == crate)).filter p := by
    intro rows
    rw [List.filter_filter]
    apply List.filter_congr
    intro r _
    cases hr : p r with
    | false => rfl
    | true => simp [hp r hr]
  rw [hsplit, h.functions, ← hsplit]

theorem Alike.candidates {crate : String} (h : Alike crate s s') (request : Request) :
    candidates s' request = candidates s request := by
  obtain ⟨marked, hsources⟩ := h.sources
  exact candidates_marked hsources request

theorem Alike.unmatchedFunctions {crate : String} (h : Alike crate s s') :
    s'.unmatchedFunctions crate = s.unmatchedFunctions crate := by
  unfold Store.unmatchedFunctions
  rw [h.filter_eq fun r hr => ?_]
  simp at hr
  exact hr.1.1

theorem Alike.crateFunctions {crate : String} (h : Alike crate s s') (status : Status) :
    s'.crateFunctions crate status = s.crateFunctions crate status := by
  unfold Store.crateFunctions
  rw [h.filter_eq fun r hr => ?_]
  simp at hr
  exact hr.1

theorem Alike.linkAll (h : Alike request.unit.name s s') (policy : Policy) :
    (linkAll s' request policy).map Prod.fst = (linkAll s request policy).map Prod.fst := by
  unfold Matching.linkAll
  rw [h.candidates, h.unmatchedFunctions, h.crateFunctions]
  cases Matching.candidates s request with
  | error e => rfl
  | ok cs =>
    cases s.unmatchedFunctions request.unit.name with
    | error e => rfl
    | ok fs =>
      cases s.crateFunctions request.unit.name .unknownFormat with
      | error e => rfl
      | ok us =>
        simp only [bind, Except.bind, pure, Except.pure, Except.map, foldl_consider]

/-- What is answered does not tell the stores apart, nor the time. -/
theorem Alike.answer (h : Alike request.unit.name s s') (policy : Policy) (times times' : Times) :
    (pass s' request policy times').1 = (pass s request policy times).1 := by
  have hlinks := h.linkAll policy
  have hcrate : s'.findCrate? request.unit = s.findCrate? request.unit := by
    unfold findCrate?
    rw [h.crates]
  unfold pass
  rw [hcrate]
  cases s.findCrate? request.unit with
  | none => rfl
  | some row =>
    cases hs : Matching.linkAll s request policy with
    | error reason =>
      cases hs' : Matching.linkAll s' request policy with
      | error reason' =>
        rw [hs, hs'] at hlinks
        cases hlinks
        rfl
      | ok answer =>
        rw [hs, hs'] at hlinks
        cases hlinks
    | ok answer =>
      cases hs' : Matching.linkAll s' request policy with
      | error reason' =>
        rw [hs, hs'] at hlinks
        cases hlinks
      | ok answer' =>
        obtain ⟨summary, linked⟩ := answer
        obtain ⟨summary', linked'⟩ := answer'
        rw [hs, hs'] at hlinks
        cases hlinks
        simp only [Option.isNone_some, Bool.false_eq_true, if_false]
        split <;> rfl

/-! ## What a pass writes -/

/-- Where the link of a function leads after a pass, whether or not the pass succeeds. -/
def linkAfter (s : Store) (request : Request) (policy : Policy) (times : Times)
    (f : BinaryColumns) : Option RowId :=
  if (pass s request policy times).1.isOk then target s request policy f else f.matchedSource

def isMarkedBy (s : Store) (request : Request) (policy : Policy) (times : Times) (id : RowId) :
    Bool :=
  (pass s request policy times).1.isOk && isTarget s request policy id

theorem relinked_of_error {policy : Policy} {times : Times}
    (h : (pass s request policy times).1.isOk = false) :
    s.relinked (fun f => linkAfter s request policy times f.value)
      (fun r => isMarkedBy s request policy times r.id || r.value.matched) = s := by
  simp only [linkAfter, isMarkedBy, h, Bool.false_eq_true, if_false, Bool.false_and, Bool.false_or]
  exact relinked_self s

/-- But for the note of its run, a pass writes links and marks. -/
theorem pass_relinks (s : Store) (request : Request) (policy : Policy) (times : Times) :
    let s' := (pass s request policy times).2
    s'.crates = s.crates ∧ s'.binaries = s.binaries ∧
    s'.sources = s.sources.modify (fun r =>
      r.value.mark (isMarkedBy s request policy times r.id || r.value.matched)) ∧
    s'.functions = s.functions.modify fun r =>
      r.value.relink (linkAfter s request policy times r.value) := by
  intro s'
  have hrelinked : ∃ runs, s' =
      { s.relinked (fun f => linkAfter s request policy times f.value)
          (fun r => isMarkedBy s request policy times r.id || r.value.matched) with runs } := by
    unfold s'
    rcases pass_cases s request policy times with ⟨-, h⟩ | ⟨reason, -, h⟩ | ⟨-, h⟩ | ⟨-, -, h⟩
    · rw [relinked_of_error (by rw [h]; rfl), h]
      exact ⟨_, rfl⟩
    · rw [relinked_of_error (by rw [h]; rfl), h]
      exact ⟨_, rfl⟩
    · rw [relinked_of_error (by rw [h]; rfl), h]
      exact ⟨_, rfl⟩
    · have hok : (pass s request policy times).1.isOk = true := by rw [h]; rfl
      simp only [linkAfter, isMarkedBy, hok, if_true, Bool.true_and]
      rw [h]
      exact ⟨_, rfl⟩
  obtain ⟨runs, h⟩ := hrelinked
  rw [h]
  exact ⟨rfl, rfl, rfl, rfl⟩

theorem linkAfter_other {f : BinaryColumns} (h : f.crate ≠ request.unit.name) (policy : Policy)
    (times : Times) : linkAfter s request policy times f = f.matchedSource := by
  have hpending : ¬ isPending request.unit.name f := by simp [isPending, h]
  unfold linkAfter target
  rw [if_neg hpending, ite_self]

theorem relink_linkAfter_other {f : BinaryColumns} (h : f.crate ≠ request.unit.name)
    (policy : Policy) (times : Times) : f.relink (linkAfter s request policy times f) = f := by
  rw [linkAfter_other h, BinaryColumns.relink_matchedSource]

/-- Passes of other crates cannot see what a pass has written. -/
theorem alike_pass {crate : String} (h : request.unit.name ≠ crate) (s : Store) (policy : Policy)
    (times : Times) : Alike crate s (pass s request policy times).2 := by
  obtain ⟨hcrates, -, hsources, hfunctions⟩ := pass_relinks s request policy times
  refine ⟨hcrates, ⟨_, hsources⟩, ?_⟩
  rw [hfunctions]
  refine Table.filter_modify (fun _ _ => rfl) fun r _ hr => ?_
  have hcrate : r.value.crate = crate := by simpa using hr
  exact relink_linkAfter_other (hcrate ▸ h.symm) policy times

theorem Alike.verdict (h : Alike request.unit.name s s') (policy : Policy) (f : BinaryColumns) :
    verdict s' request policy f = verdict s request policy f := by
  obtain ⟨marked, hsources⟩ := h.sources
  unfold Matching.verdict
  rw [requestCandidates_marked hsources]

theorem Alike.linkAfter (h : Alike request.unit.name s s') (policy : Policy) (times times' : Times)
    (f : BinaryColumns) :
    linkAfter s' request policy times' f = linkAfter s request policy times f := by
  unfold Matching.linkAfter target
  rw [h.answer policy times times', h.verdict]

theorem Alike.isMarkedBy (h : Alike request.unit.name s s') (policy : Policy)
    (times times' : Times) (id : RowId) :
    isMarkedBy s' request policy times' id = isMarkedBy s request policy times id := by
  unfold Matching.isMarkedBy
  rw [h.answer policy times times']
  congr 1
  rw [Bool.eq_iff_iff, isTarget_iff, isTarget_iff]
  simp only [h.verdict]
  have hrows := h.filter_eq (p := fun r => isPending request.unit.name r.value)
    fun r hr => by simp_all [isPending]
  constructor
  · rintro ⟨r, hr, hpending, hlink⟩
    have hmem : r ∈ s'.functions.rows.filter fun r => isPending request.unit.name r.value :=
      List.mem_filter.2 ⟨hr, hpending⟩
    rw [hrows] at hmem
    exact ⟨r, (List.mem_filter.1 hmem).1, hpending, hlink⟩
  · rintro ⟨r, hr, hpending, hlink⟩
    have hmem : r ∈ s.functions.rows.filter fun r => isPending request.unit.name r.value :=
      List.mem_filter.2 ⟨hr, hpending⟩
    rw [← hrows] at hmem
    exact ⟨r, (List.mem_filter.1 hmem).1, hpending, hlink⟩

/-! ## Two passes -/

section Order

variable {first second : Request}

theorem relink_comm (h : first.unit.name ≠ second.unit.name) (p q : Policy) (t u : Times)
    (f : BinaryColumns) :
    let after₁ (f : BinaryColumns) := f.relink (linkAfter s first p t f)
    let after₂ (f : BinaryColumns) := f.relink (linkAfter s second q u f)
    after₂ (after₁ f) = after₁ (after₂ f) := by
  intro after₁ after₂
  by_cases hcrate : f.crate = first.unit.name
  · -- The function is none of the second crate, with its new link neither.
    have hother : f.crate ≠ second.unit.name := hcrate ▸ h
    have hkeeps : after₂ f = f := relink_linkAfter_other hother q u
    have hkeeps' : after₂ (after₁ f) = after₁ f :=
      relink_linkAfter_other (f := after₁ f) hother q u
    rw [hkeeps, hkeeps']
  · have hkeeps : after₁ f = f := relink_linkAfter_other hcrate p t
    have hkeeps' : after₁ (after₂ f) = after₂ f :=
      relink_linkAfter_other (f := after₂ f) hcrate p t
    rw [hkeeps, hkeeps']

/-- What two passes leave, told by the store before both. -/
theorem pass_pass_relinks (h : first.unit.name ≠ second.unit.name) (s : Store) (p q : Policy)
    (t u : Times) :
    let s₂ := (pass (pass s first p t).2 second q u).2
    s₂.crates = s.crates ∧ s₂.binaries = s.binaries ∧
    s₂.sources = s.sources.modify (fun r => r.value.mark
      (isMarkedBy s second q u r.id || (isMarkedBy s first p t r.id || r.value.matched))) ∧
    s₂.functions = s.functions.modify fun r =>
      (r.value.relink (linkAfter s first p t r.value)).relink
        (linkAfter s second q u (r.value.relink (linkAfter s first p t r.value))) := by
  have hsees := alike_pass h s p t
  obtain ⟨hcrates, hbinaries, hsources, hfunctions⟩ := pass_relinks s first p t
  obtain ⟨hcrates', hbinaries', hsources', hfunctions'⟩ :=
    pass_relinks (pass s first p t).2 second q u
  simp only [hsees.linkAfter q u u, hsees.isMarkedBy q u u] at hsources' hfunctions'
  rw [hcrates] at hcrates'
  rw [hbinaries] at hbinaries'
  rw [hsources, Table.modify_modify] at hsources'
  rw [hfunctions, Table.modify_modify] at hfunctions'
  exact ⟨hcrates', hbinaries', hsources', hfunctions'⟩

/-- Passes of two crates in either order: each gets the same answer, at whatever times they are made,
and the tables are the same afterwards but for the notes of the runs. -/
theorem passes_commute (h : first.unit.name ≠ second.unit.name) (c : Connection) (p q : Policy)
    (t u t' u' : Times) :
    let one := transact first p t c
    let both := transact second q u one.2
    let other := transact second q u' c
    let both' := transact first p t' other.2
    both'.1 = one.1 ∧ other.1 = both.1 ∧
      both'.2.store.sources = both.2.store.sources ∧
      both'.2.store.functions = both.2.store.functions ∧
      both'.2.store.crates = both.2.store.crates ∧
      both'.2.store.binaries = both.2.store.binaries ∧ both'.2.saved = both.2.saved := by
  obtain ⟨s, saved⟩ := c
  cases saved with
  | some old =>
    simp only [transact_some]
    exact ⟨trivial, trivial, trivial, trivial, trivial, trivial, trivial⟩
  | none =>
    simp only [transact_none]
    obtain ⟨hcrates, hbinaries, hsources, hfunctions⟩ := pass_pass_relinks h s p q t u
    obtain ⟨hcrates', hbinaries', hsources', hfunctions'⟩ := pass_pass_relinks h.symm s q p u' t'
    refine ⟨(alike_pass h.symm s q u').answer p t t', ((alike_pass h s p t).answer q u' u).symm,
      ?_, ?_, hcrates'.trans hcrates.symm, hbinaries'.trans hbinaries.symm, trivial⟩
    · rw [hsources, hsources']
      refine Table.modify_congr fun r _ => ?_
      rw [(Alike.self _ s).isMarkedBy p t t', (Alike.self _ s).isMarkedBy q u u', Bool.or_left_comm]
    · rw [hfunctions, hfunctions']
      refine Table.modify_congr fun r _ => ?_
      simp only [(Alike.self _ s).linkAfter p t t', (Alike.self _ s).linkAfter q u u']
      exact (relink_comm h p q t u r.value).symm

end Order

/-! ## An example -/

/-- Two crates, with a function each. Only the first has a source function. -/
def sharedStore : Store :=
  let source : SourceFunction :=
    { crate := "app", name := "run", fullName := "app::run", kind := .normal "app", status := .ok,
      version := "1", signature := none, matched := false }
  let function (crate : String) : BinaryFunction :=
    { crate, name := "run", fullName := crate ++ "::run", kind := .normal crate, status := .ok,
      binary := "b", address := 16, signature := "", matchedSource := none }
  ["app", "net"].foldl (fun s crate => s.addFunction 1 (function crate))
    (((Store.empty.addCrate ⟨"app", "1"⟩).addCrate ⟨"net", "1"⟩).addSource 1 source)

/-- The second pass takes up the candidates of the first crate, and links to the same source
function. -/
theorem passes_commute_sample :
    let appRequest : Request := ⟨⟨"app", "1"⟩, []⟩
    let netRequest : Request := ⟨⟨"net", "1"⟩, [⟨"app", "1"⟩]⟩
    let other := transact netRequest .standard ⟨"5", "6"⟩ ⟨sharedStore, none⟩
    let both := transact appRequest .standard ⟨"7", "8"⟩ other.2
    appRequest.unit.name ≠ netRequest.unit.name ∧
      both.1.toOption = some ⟨⟨"app", "1"⟩, 1, 1, 0, 0, 0⟩ ∧
      other.1.toOption = some ⟨⟨"net", "1"⟩, 1, 1, 0, 0, 0⟩ ∧
      both.2.store.sources.rows.map (·.value.matched) = [true] ∧
      both.2.store.functions.rows.map (·.value.matchedSource) = [some 1, some 1] := by
  intro appRequest netRequest other both
  have hnames : appRequest.unit.name ≠ netRequest.unit.name := by decide
  have h := passes_commute hnames ⟨sharedStore, none⟩ .standard .standard ⟨"1", "2"⟩ ⟨"3", "4"⟩
    ⟨"7", "8"⟩ ⟨"5", "6"⟩
  change both.1 = _ ∧ other.1 = _ ∧ both.2.store.sources = _ ∧ both.2.store.functions = _ ∧ _ at h
  obtain ⟨hanswer, hanswer', hsources, hfunctions, -⟩ := h
  rw [hanswer, hanswer', hsources, hfunctions]
  decide +kernel

end CrateTrace.Matching
