import CrateTrace.Correlation
import CrateTrace.Decimal.Text
import CrateTrace.Store.Query

/-!
# Matching passes

A pass links the functions of a crate that are not linked yet to source functions of one version of
it. If too many names cannot be parsed, everything is as before but for a note of the run.
-/

namespace CrateTrace.Matching

open Correlation Name Store

structure Request where
  unit : CrateVersion
  /-- Other crate versions whose source functions are candidates too. -/
  extra : List CrateVersion
deriving DecidableEq, Repr

structure Policy where
  /-- Which fraction of the names may fail to parse. -/
  maxFailureRatio : Float
  tieBreak : TieBreak

def Policy.standard : Policy := ⟨0.25, .leaveUnmatched⟩

/-! ## Summaries -/

structure Summary where
  unit : CrateVersion
  considered : Nat
  linkedByName : Nat
  linkedBySignature : Nat
  unmatched : Nat
  failures : Nat
deriving DecidableEq, Repr

def Summary.start (unit : CrateVersion) : Summary := ⟨unit, 0, 0, 0, 0, 0⟩

def Summary.addFailure (s : Summary) : Summary :=
  { s with considered := s.considered + 1, failures := s.failures + 1 }

def Summary.addOutcome (s : Summary) : Outcome → Summary
  | .linked _ .name => { s with considered := s.considered + 1, linkedByName := s.linkedByName + 1 }
  | .linked _ _ =>
    { s with considered := s.considered + 1, linkedBySignature := s.linkedBySignature + 1 }
  | .unmatched _ => { s with considered := s.considered + 1, unmatched := s.unmatched + 1 }

/-- What the clock says when a pass starts, and when its note is written. -/
structure Times where
  started : String
  finished : String
deriving DecidableEq, Repr

/-- The note of a pass. -/
def Summary.run (s : Summary) (status : RunStatus) (times : Times) : Run :=
  { crate := s.unit.name
    version := s.unit.version
    linkedByName := s.linkedByName
    linkedBySignature := s.linkedBySignature
    unmatched := s.unmatched
    failures := s.failures
    status
    startedAt := times.started
    finishedAt := times.finished }

inductive PassError where
  | unknownCrate (unit : CrateVersion)
  | tooManyFailures (failures considered : Nat) (limit : Float)
  | store (reason : StoreError)

def PassError.message : PassError → String
  | .unknownCrate unit => s!"crate {unit.name} {unit.version} has not been ingested"
  | .tooManyFailures failures considered limit =>
    s!"{failures} of {considered} binary functions failed to parse (limit {Decimal.plain limit}); " ++
      "pass rolled back"
  | .store reason => reason.message

def PassError.chain : PassError → List String
  | .store reason => reason.chain
  | e => [e.message]

/-! ## Candidates and probes -/

def validSignature? (text : String) : Option Signature.Pattern :=
  (Signature.Pattern.ofText text).toOption

/-- A source function as a candidate; its key is relative to its own crate. -/
def candidateOf? (crate : String) (r : Row SourceFunction) : Option Candidate :=
  match structuralKeyOf r.value.fullName crate with
  | .error _ => none
  | .ok key => some ⟨r.id, r.value.fullName, key, r.value.signature.bind validSignature?⟩

def candidatesOf (s : Store) (unit : CrateVersion) : Except StoreError (List Candidate) :=
  (s.sourceFunctions unit).map fun sources => sources.filterMap (candidateOf? unit.name)

/-- The candidates of all crate versions that a request names, its own first. -/
def candidates (s : Store) (request : Request) : Except StoreError (List Candidate) :=
  ((request.unit :: request.extra).mapM (candidatesOf s)).map List.flatten

/-- What is compared of a function, with the key relative to its crate. -/
def probeOf? (crate : String) (f : BinaryFunction) : Option Probe :=
  match structuralKeyOf f.fullName crate with
  | .error _ => none
  | .ok key => some ⟨key, validSignature? f.signature⟩

/-! ## The pass -/

/-- Considers one function: links it if a source function is found. -/
def consider (resolve : Probe → Outcome) (state : Summary × Store) (r : Row BinaryFunction) :
    Summary × Store :=
  let (summary, s) := state
  match probeOf? summary.unit.name r.value with
  | none => (summary.addFailure, s)
  | some probe =>
    match resolve probe with
    | .linked source basis => (summary.addOutcome (.linked source basis), s.link r.id source)
    | .unmatched reason => (summary.addOutcome (.unmatched reason), s)

/-- Counts the functions that were no functions of the crate for want of a parsable name. -/
def countUnparsed (summary : Summary) (functions : List (Row BinaryFunction)) : Summary :=
  functions.foldl
    (fun summary r => if (parse r.value.fullName).isOk then summary else summary.addFailure) summary

/-- More than this fraction of the functions failed. -/
def exceeds (failures considered : Nat) (limit : Float) : Bool :=
  0 < considered && limit < failures.toFloat / considered.toFloat

/-- The links of a pass, before it is known whether they stay. -/
def linkAll (s : Store) (request : Request) (policy : Policy) :
    Except StoreError (Summary × Store) := do
  let candidates ← candidates s request
  let functions ← s.unmatchedFunctions request.unit.name
  let unparsed ← s.crateFunctions request.unit.name .unknownFormat
  let (summary, linked) :=
    functions.foldl (consider (resolve policy.tieBreak candidates)) (.start request.unit, s)
  return (countUnparsed summary unparsed, linked)

/-- A pass as a whole. On a connection its links are made one by one, which comes to the same. -/
def pass (s : Store) (request : Request) (policy : Policy) (times : Times) :
    Except PassError Summary × Store :=
  if (s.findCrate? request.unit).isNone then (.error (.unknownCrate request.unit), s)
  else
    match linkAll s request policy with
    | .error reason => (.error (.store reason), s)
    | .ok (summary, linked) =>
      if exceeds summary.failures summary.considered policy.maxFailureRatio then
        (.error (.tooManyFailures summary.failures summary.considered policy.maxFailureRatio),
          s.addRun (summary.run .rolledBack times))
      else (.ok summary, linked.addRun (summary.run .committed times))

end CrateTrace.Matching
