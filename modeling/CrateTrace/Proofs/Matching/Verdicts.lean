import CrateTrace.Matching
import CrateTrace.Proofs.Store.Links
import CrateTrace.Proofs.Store.Readings

/-!
# What a pass decides

A pass comes to a verdict about each function from the store as it was at the beginning. Its counts
and its links follow from the verdicts alone.
-/

namespace CrateTrace.Matching

open Correlation Name Store

/-! ## Verdicts -/

/-- What is compared of a function with this name and signature. -/
def probe? (crate fullName signature : String) : Option Probe :=
  match parse fullName with
  | .error _ => none
  | .ok d => some ⟨d.structuralKey (some crate), validSignature? signature⟩

theorem probeOf_eq (crate : String) (f : BinaryFunction) :
    probeOf? crate f = probe? crate f.fullName f.signature := by
  unfold probeOf? probe? structuralKeyOf
  cases parse f.fullName <;> rfl

/-- The source functions of a crate version that are `ok` and have a name that can be parsed. -/
def unitCandidates (s : Store) (unit : CrateVersion) : List Candidate :=
  (s.sources.rows.filter fun r =>
    r.value.crate == unit.name && r.value.version == unit.version && r.value.hasStatus .ok).filterMap
  fun r =>
    match parse r.value.fullName with
    | .error _ => none
    | .ok d =>
      some ⟨r.id, r.value.fullName, d.structuralKey (some unit.name),
        r.value.signature.bind validSignature?⟩

def requestCandidates (s : Store) (request : Request) : List Candidate :=
  (request.unit :: request.extra).flatMap (unitCandidates s)

/-- An `ok` function of the crate without a link. -/
def isPending (crate : String) (f : BinaryColumns) : Bool :=
  f.crate == crate && f.hasStatus .ok && f.matchedSource.isNone

/-- What a pass comes to about a pending function; nothing if its name cannot be parsed. -/
def verdict (s : Store) (request : Request) (policy : Policy) (f : BinaryColumns) :
    Option Outcome :=
  (probe? request.unit.name f.fullName f.signature).map
    (resolve policy.tieBreak (requestCandidates s request))

/-- Where the link of a function leads after a pass. -/
def target (s : Store) (request : Request) (policy : Policy) (f : BinaryColumns) : Option RowId :=
  if isPending request.unit.name f then (verdict s request policy f).bind Outcome.source?
  else f.matchedSource

/-- Whether a pass links a function to this source function. -/
def isTarget (s : Store) (request : Request) (policy : Policy) (id : RowId) : Bool :=
  s.functions.rows.any fun r =>
    isPending request.unit.name r.value && target s request policy r.value == some id

def Summary.add (t : Summary) : Option Outcome → Summary
  | none => t.addFailure
  | some outcome => t.addOutcome outcome

@[simp] theorem Summary.unit_add (t : Summary) (v : Option Outcome) : (t.add v).unit = t.unit := by
  rcases v with _ | ⟨_, _ | _ | _⟩ | _ <;> rfl

def isByName : Option Outcome → Bool
  | some (.linked _ .name) => true
  | _ => false

def isBySignature : Option Outcome → Bool
  | some (.linked _ .name) => false
  | some (.linked _ _) => true
  | _ => false

def isUnmatched : Option Outcome → Bool
  | some (.unmatched _) => true
  | _ => false

theorem Summary.foldl_add (t : Summary) (vs : List (Option Outcome)) :
    vs.foldl Summary.add t =
      { unit := t.unit
        considered := t.considered + vs.length
        linkedByName := t.linkedByName + vs.countP isByName
        linkedBySignature := t.linkedBySignature + vs.countP isBySignature
        unmatched := t.unmatched + vs.countP isUnmatched
        failures := t.failures + vs.countP Option.isNone } := by
  induction vs generalizing t with
  | nil => rfl
  | cons v vs ih =>
    rw [List.foldl_cons, ih]
    rcases v with _ | ⟨_, _ | _ | _⟩ | _ <;>
      simp [Summary.add, Summary.addFailure, Summary.addOutcome, List.countP_cons, isByName,
        isBySignature, isUnmatched] <;> omega

theorem length_eq_countP (vs : List (Option Outcome)) :
    vs.length = vs.countP isByName + vs.countP isBySignature + vs.countP isUnmatched +
      vs.countP Option.isNone := by
  induction vs with
  | nil => rfl
  | cons v vs ih =>
    rcases v with _ | ⟨_, _ | _ | _⟩ | _ <;>
      simp [List.countP_cons, isByName, isBySignature, isUnmatched, ih] <;> omega

theorem countP_map_congr {α β : Type} {xs : List α} {f g : α → β} {p : β → Bool}
    (h : ∀ x ∈ xs, p (f x) = p (g x)) : (xs.map f).countP p = (xs.map g).countP p := by
  rw [List.countP_map, List.countP_map]
  exact List.countP_congr fun x hx => Bool.eq_iff_iff.1 (h x hx)

end CrateTrace.Matching
