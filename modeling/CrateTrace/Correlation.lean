import CrateTrace.Name.Key
import CrateTrace.Signature.Pattern

/-!
# Correlation

Which source function a function of a binary comes from. A name decides if it is the only one with
its key; otherwise the signature does, and ties are left to a policy.
-/

namespace CrateTrace.Correlation

open Name Signature

/-! ## Both sides -/

/-- A source function that functions of a binary may come from. -/
structure Candidate where
  id : Int
  fullName : String
  key : StructuralKey
  signature : Option Pattern
deriving DecidableEq, Repr

/-- What is compared of a function of a binary. -/
structure Probe where
  key : StructuralKey
  signature : Option Pattern
deriving DecidableEq, Repr

/-- What to do if several candidates fit equally well. -/
inductive TieBreak where
  | leaveUnmatched
  | lexicographicallySmallest
deriving DecidableEq, Repr

def TieBreak.text : TieBreak → String
  | .leaveUnmatched => "leave-unmatched"
  | .lexicographicallySmallest => "lexicographically-smallest"

def TieBreak.ofText? : String → Option TieBreak
  | "leave-unmatched" => some .leaveUnmatched
  | "lexicographically-smallest" => some .lexicographicallySmallest
  | _ => none

/-! ## Outcomes -/

/-- Why a link is made. -/
inductive Basis where
  | name
  | signature
  | tieBreak
deriving DecidableEq, Repr

def Basis.text : Basis → String
  | .name => "name"
  | .signature => "signature"
  | .tieBreak => "tie-break"

/-- Why no link is made, and how many candidates stood in the way. -/
inductive Reason where
  | noCandidate
  | ambiguous (candidates : Nat)
  | signatureTie (candidates : Nat)
deriving DecidableEq, Repr

def Reason.text : Reason → String
  | .noCandidate => "no-candidate"
  | .ambiguous _ => "ambiguous"
  | .signatureTie _ => "signature-tie"

def Reason.candidates? : Reason → Option Nat
  | .noCandidate => none
  | .ambiguous n | .signatureTie n => some n

inductive Outcome where
  | linked (source : Int) (basis : Basis)
  | unmatched (reason : Reason)
deriving DecidableEq, Repr

def Outcome.source? : Outcome → Option Int
  | .linked source _ => some source
  | .unmatched _ => none

/-! ## Signatures -/

/-- How well two signatures agree; nothing if one is missing or they contradict each other. -/
def Candidate.score? (probe : Probe) (c : Candidate) : Option Nat :=
  match probe.signature, c.signature with
  | some p, some s => p.agreement s
  | _, _ => none

/-- The candidates with the best score so far. -/
structure Best where
  score : Nat
  members : List Candidate

/-- A candidate joins those with its score and displaces those with a lower one. A score of zero
counts for nothing. -/
def Best.offer (probe : Probe) (best : Best) (c : Candidate) : Best :=
  match c.score? probe with
  | none => best
  | some score =>
    if score = 0 ∨ score < best.score then best
    else if best.score < score then ⟨score, [c]⟩
    else ⟨best.score, best.members ++ [c]⟩

def bestOf (probe : Probe) (pool : List Candidate) : List Candidate :=
  (pool.foldl (Best.offer probe) ⟨0, []⟩).members

/-! ## Ties -/

/-- By full name, and by id where names are the same. -/
def Candidate.before (a b : Candidate) : Bool :=
  a.fullName < b.fullName || (a.fullName == b.fullName && a.id < b.id)

def least? : List Candidate → Option Candidate
  | [] => none
  | c :: rest => some (rest.foldl (fun least c => if c.before least then c else least) c)

def breakTie (policy : TieBreak) (tied : List Candidate) (reason : Reason) : Outcome :=
  match policy, least? tied with
  | .lexicographicallySmallest, some c => .linked c.id .tieBreak
  | _, _ => .unmatched reason

/-! ## The decision -/

/-- Signatures are asked among the candidates with the probe's key if there are several, and among
all candidates if there is none. -/
def resolve (policy : TieBreak) (candidates : List Candidate) (probe : Probe) : Outcome :=
  match candidates.filter fun c => c.key = probe.key with
  | [only] => .linked only.id .name
  | [] =>
    match bestOf probe candidates with
    | [] => .unmatched .noCandidate
    | [only] => .linked only.id .signature
    | tied => breakTie policy tied (.signatureTie tied.length)
  | many =>
    match bestOf probe many with
    | [only] => .linked only.id .signature
    | [] => breakTie policy many (.ambiguous many.length)
    | tied => breakTie policy tied (.ambiguous many.length)

end CrateTrace.Correlation
