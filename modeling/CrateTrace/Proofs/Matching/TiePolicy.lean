import CrateTrace.Proofs.Correlation.Decision
import CrateTrace.Proofs.Matching.Committed
import CrateTrace.Proofs.Matching.Rollback

/-!
# What breaking ties adds

A pass that breaks ties fails just when one that leaves them does. It makes the same links and
further ones, each for a function that is left otherwise because several candidates fit it equally
well.
-/

namespace CrateTrace

open Name Store

namespace Correlation

/-! ## Answers -/

/-- Several candidates fit equally well. -/
inductive IsTie : Outcome → Prop where
  | ambiguous {count : Nat} : IsTie (.unmatched (.ambiguous count))
  | signatureTie {count : Nat} : IsTie (.unmatched (.signatureTie count))

/-- What an answer that leaves ties turns into if they are broken. -/
inductive Breaks : Outcome → Outcome → Prop where
  | decided {outcome : Outcome} (clear : ¬ IsTie outcome) : Breaks outcome outcome
  | broken {outcome : Outcome} {id : Int} (tie : IsTie outcome) :
    Breaks outcome (.linked id .tieBreak)

theorem IsTie.source?_eq_none {outcome : Outcome} (h : IsTie outcome) : outcome.source? = none := by
  cases h <;> rfl

theorem breaks_resolve (candidates : List Candidate) (probe : Probe) :
    Breaks (resolve .leaveUnmatched candidates probe)
      (resolve .lexicographicallySmallest candidates probe) := by
  by_cases hnamed : (named candidates probe).length = 1
  · obtain ⟨c, hc⟩ := List.length_eq_one_iff.1 hnamed
    rw [resolve_of_named hc, resolve_of_named hc]
    exact .decided nofun
  by_cases hfavoured : (favoured candidates probe).length = 1
  · obtain ⟨c, hc⟩ := List.length_eq_one_iff.1 hfavoured
    rw [resolve_of_favoured hnamed hc, resolve_of_favoured hnamed hc]
    exact .decided nofun
  rw [resolve_of_tie hnamed hfavoured, resolve_of_tie hnamed hfavoured]
  by_cases htied : tied candidates probe = []
  · rw [if_pos htied, if_pos htied]
    exact .decided nofun
  · obtain ⟨c, hc⟩ := exists_isLeast htied
    rw [if_neg htied, if_neg htied, breakTie_leave, breakTie_least hc]
    refine .broken ?_
    split
    · exact .signatureTie
    · exact .ambiguous

end Correlation

namespace Matching

open Correlation

/-! ## Verdicts -/

variable {s : Store} {request : Request} {limit : Float}

def leaving (limit : Float) : Policy := ⟨limit, .leaveUnmatched⟩

def breaking (limit : Float) : Policy := ⟨limit, .lexicographicallySmallest⟩

theorem breaks_verdict (s : Store) (request : Request) (limit : Float) (f : BinaryColumns) :
    Option.Rel Breaks (verdict s request (leaving limit) f)
      (verdict s request (breaking limit) f) := by
  unfold verdict
  cases probe? request.unit.name f.fullName f.signature with
  | none => exact .none
  | some probe => exact .some (breaks_resolve _ probe)

section Broken

variable {v v' : Option Outcome}

theorem isNone_of_breaks (h : Option.Rel Breaks v v') : v'.isNone = v.isNone := by
  cases h <;> rfl

theorem isByName_of_breaks (h : Option.Rel Breaks v v') : isByName v' = isByName v := by
  cases h with
  | none => rfl
  | some h =>
    cases h with
    | decided => rfl
    | broken tie => cases tie <;> rfl

/-- Either both lead to the same place, or only the second leads anywhere. -/
theorem source_of_breaks (h : Option.Rel Breaks v v') :
    v'.bind Outcome.source? = v.bind Outcome.source? ∨
      ∃ outcome id, v = some outcome ∧ IsTie outcome ∧ v' = some (.linked id .tieBreak) := by
  cases h with
  | none => exact .inl rfl
  | some h =>
    cases h with
    | decided => exact .inl rfl
    | broken tie => exact .inr ⟨_, _, rfl, tie, rfl⟩

end Broken

/-! ## Counts -/

theorem tally_breaking (s : Store) (request : Request) (limit : Float) :
    (tally s request (breaking limit)).considered = (tally s request (leaving limit)).considered ∧
      (tally s request (breaking limit)).failures = (tally s request (leaving limit)).failures ∧
      (tally s request (breaking limit)).linkedByName =
        (tally s request (leaving limit)).linkedByName := by
  refine ⟨by simp [tally], ?_, ?_⟩
  · unfold tally
    exact congrArg (· + _) (countP_map_congr fun r _ =>
      isNone_of_breaks (breaks_verdict s request limit r.value))
  · exact countP_map_congr fun r _ => isByName_of_breaks (breaks_verdict s request limit r.value)

theorem failsTooOften_breaking (s : Store) (request : Request) (limit : Float) :
    failsTooOften s request (breaking limit) = failsTooOften s request (leaving limit) := by
  obtain ⟨hconsidered, hfailures, -⟩ := tally_breaking s request limit
  rw [failsTooOften, hconsidered, hfailures]
  rfl

theorem linkAll_policy (s : Store) (request : Request) (p q : Policy) :
    match linkAll s request p with
    | .error reason => linkAll s request q = .error reason
    | .ok _ => ∃ answer, linkAll s request q = .ok answer := by
  unfold linkAll
  cases candidates s request with
  | error e => rfl
  | ok cs =>
    cases s.unmatchedFunctions request.unit.name with
    | error e => rfl
    | ok fs =>
      cases s.crateFunctions request.unit.name .unknownFormat with
      | error e => rfl
      | ok us => exact ⟨_, rfl⟩

/-! ## Links -/

/-- A function that is left because of a tie, and the source function that is chosen if the tie is
broken. -/
structure LeftTied (s : Store) (request : Request) (f : BinaryColumns) (id : RowId) : Prop where
  pending : isPending request.unit.name f = true
  chosen : ∃ d, parse f.fullName = .ok d ∧
    let probe : Probe := ⟨d.structuralKey (some request.unit.name), validSignature? f.signature⟩
    IsTie (resolve .leaveUnmatched (requestCandidates s request) probe) ∧
      resolve .lexicographicallySmallest (requestCandidates s request) probe =
        .linked id .tieBreak

theorem exists_parse_of_verdict {policy : Policy} {f : BinaryColumns} {outcome : Outcome}
    (h : verdict s request policy f = some outcome) : ∃ d, parse f.fullName = .ok d := by
  unfold verdict probe? at h
  cases hparse : parse f.fullName with
  | error e => simp [hparse] at h
  | ok d => exact ⟨d, rfl⟩

/-- Ties aside, the links of both policies lead to the same source functions. -/
theorem target_breaking (s : Store) (request : Request) (limit : Float) (f : BinaryColumns) :
    target s request (breaking limit) f = target s request (leaving limit) f ∨
      ∃ id, LeftTied s request f id := by
  unfold target
  by_cases hpending : isPending request.unit.name f = true
  · rw [if_pos hpending, if_pos hpending]
    refine (source_of_breaks (breaks_verdict s request limit f)).imp_right ?_
    rintro ⟨outcome, id, hleft, tie, hbroken⟩
    obtain ⟨d, hparse⟩ := exists_parse_of_verdict hleft
    rw [verdict_of_parse s request _ hparse, Option.some.injEq] at hleft hbroken
    exact ⟨id, hpending, d, hparse, hleft ▸ tie, hbroken⟩
  · rw [if_neg hpending, if_neg hpending]
    exact .inl rfl

theorem LeftTied.targets {f : BinaryColumns} {id : RowId} (h : LeftTied s request f id)
    (limit : Float) :
    target s request (leaving limit) f = none ∧ target s request (breaking limit) f = some id := by
  obtain ⟨hpending, d, hparse, tie, hbroken⟩ := h
  unfold target
  rw [if_pos hpending, if_pos hpending, verdict_of_parse s request _ hparse,
    verdict_of_parse s request _ hparse]
  exact ⟨tie.source?_eq_none, congrArg Outcome.source? hbroken⟩

theorem LeftTied.relink_none {f : BinaryColumns} {id : RowId} (h : LeftTied s request f id) :
    f.relink none = f := by
  have hfree : f.matchedSource = none := by
    have := h.pending
    simp_all [isPending]
  rw [← hfree, BinaryColumns.relink_matchedSource]

/-- The functions after a pass. -/
def linkedRows (s : Store) (request : Request) (policy : Policy) : List (Row BinaryColumns) :=
  s.functions.rows.map fun r => ⟨r.id, r.value.relink (target s request policy r.value)⟩

theorem linked_stays {r : Row BinaryColumns} (hr : r ∈ linkedRows s request (leaving limit))
    (hlinked : r.value.matchedSource ≠ none) : r ∈ linkedRows s request (breaking limit) := by
  obtain ⟨f, hf, rfl⟩ := List.mem_map.1 hr
  rw [BinaryColumns.matchedSource_relink] at hlinked
  refine List.mem_map.2 ⟨f, hf, ?_⟩
  rcases target_breaking s request limit f.value with hsame | ⟨id, htied⟩
  · rw [hsame]
  · exact absurd (htied.targets limit).1 hlinked

theorem mem_breaking_only_iff (r : Row BinaryColumns) :
    (r ∈ linkedRows s request (breaking limit) ∧ r ∉ linkedRows s request (leaving limit)) ↔
      ∃ f ∈ s.functions.rows, f ∈ linkedRows s request (leaving limit) ∧
        ∃ id, LeftTied s request f.value id ∧ r = ⟨f.id, f.value.relink (some id)⟩ := by
  constructor
  · rintro ⟨hr, hnot⟩
    obtain ⟨f, hf, rfl⟩ := List.mem_map.1 hr
    rcases target_breaking s request limit f.value with hsame | ⟨id, htied⟩
    · exact absurd (List.mem_map.2 ⟨f, hf, by rw [hsame]⟩) hnot
    · obtain ⟨hleft, hbroken⟩ := htied.targets limit
      refine ⟨f, hf, List.mem_map.2 ⟨f, hf, ?_⟩, id, htied, by rw [hbroken]⟩
      rw [hleft, htied.relink_none]
  · rintro ⟨f, hf, -, id, htied, rfl⟩
    obtain ⟨hleft, hbroken⟩ := htied.targets limit
    refine ⟨List.mem_map.2 ⟨f, hf, by rw [hbroken]⟩, fun hr => ?_⟩
    obtain ⟨f', hf', heq⟩ := List.mem_map.1 hr
    obtain ⟨hid, hvalue⟩ := Row.mk.inj heq
    obtain rfl := s.functions.eq_of_id_eq hf' hf hid
    have hlink := congrArg BinaryColumns.matchedSource hvalue
    simp [hleft] at hlink

/-! ## The pass -/

/-- Both policies fail alike, or both passes make their links. -/
theorem pass_breaking (s : Store) (request : Request) (limit : Float) (times times' : Times) :
    (∃ e, (pass s request (leaving limit) times).1 = .error e ∧
      (pass s request (breaking limit) times').1 = .error e) ∨
    ∃ run run', pass s request (leaving limit) times =
        (.ok (tally s request (leaving limit)), (passLinks s request (leaving limit)).addRun run) ∧
      pass s request (breaking limit) times' =
        (.ok (tally s request (breaking limit)), (passLinks s request (breaking limit)).addRun run') := by
  by_cases hcrate : s.findCrate? request.unit = none
  · rw [pass_of_unknown request _ hcrate, pass_of_unknown request _ hcrate]
    exact .inl ⟨_, rfl, rfl⟩
  have hreads := linkAll_policy s request (leaving limit) (breaking limit)
  cases hlinks : linkAll s request (leaving limit) with
  | error reason =>
    rw [hlinks] at hreads
    rw [pass_of_unread request hcrate hlinks, pass_of_unread request hcrate hreads]
    exact .inl ⟨_, rfl, rfl⟩
  | ok answer =>
    rw [hlinks] at hreads
    obtain ⟨answer', hlinks'⟩ := hreads
    obtain ⟨hconsidered, hfailures, -⟩ := tally_breaking s request limit
    rw [pass_of_reads request hcrate hlinks, pass_of_reads request hcrate hlinks',
      failsTooOften_breaking]
    by_cases hfails : failsTooOften s request (leaving limit) = true
    · rw [if_pos hfails, if_pos hfails, hconsidered, hfailures]
      exact .inl ⟨_, rfl, rfl⟩
    · rw [if_neg hfails, if_neg hfails]
      exact .inr ⟨_, _, rfl, rfl⟩

/-- Both policies on one connection, at whatever times: the same error, or two passes with the same
counts but for those of ties, of which the second makes all links of the first. Its further links are
made just for the functions that the first leaves because of a tie. -/
theorem breaking_ties_adds_links (request : Request) (limit : Float) (c : Connection)
    (times times' : Times) :
    let leave := transact request ⟨limit, .leaveUnmatched⟩ times c
    let least := transact request ⟨limit, .lexicographicallySmallest⟩ times' c
    (∃ e, leave.1 = .error e ∧ least.1 = .error e) ∨
    ∃ summary summary', leave.1 = .ok summary ∧ least.1 = .ok summary' ∧
      summary'.considered = summary.considered ∧ summary'.failures = summary.failures ∧
      summary'.linkedByName = summary.linkedByName ∧
      (∀ r ∈ leave.2.store.functions.rows, r.value.matchedSource ≠ none →
        r ∈ least.2.store.functions.rows) ∧
      ∀ r, (r ∈ least.2.store.functions.rows ∧ r ∉ leave.2.store.functions.rows) ↔
        ∃ f ∈ c.store.functions.rows, f ∈ leave.2.store.functions.rows ∧
          ∃ id, LeftTied c.store request f.value id ∧ r = ⟨f.id, f.value.relink (some id)⟩ := by
  obtain ⟨s, saved⟩ := c
  cases saved with
  | some old =>
    simp only [transact_some]
    exact .inl ⟨_, rfl, rfl⟩
  | none =>
    simp only [transact_none]
    rcases pass_breaking s request limit times times' with herror | ⟨run, run', hleave, hleast⟩
    · exact .inl herror
    · obtain ⟨hconsidered, hfailures, hnamed⟩ := tally_breaking s request limit
      unfold leaving at hleave
      unfold breaking at hleast
      rw [hleave, hleast]
      exact .inr ⟨_, _, rfl, rfl, hconsidered, hfailures, hnamed, fun _ => linked_stays,
        mem_breaking_only_iff⟩

end Matching

end CrateTrace
