import CrateTrace.Matching
import CrateTrace.Store.Connection

/-!
# Passes in transactions

A pass writes each link as soon as it is found. What it has written is taken back unless the whole
pass succeeds.
-/

namespace CrateTrace.Matching

open Correlation Name Store

/-- Work on a connection that may stop early. What it has written by then is there. -/
abbrev Work := ExceptT PassError (StateM Connection)

namespace Work

variable {α : Type}

def on (w : Work α) (c : Connection) : Except PassError α × Connection := StateT.run w.run c

/-- Asks the store as it is now. -/
def ask (question : Store → Except StoreError α) : Work α := do
  match question (← get).store with
  | .ok answer => return answer
  | .error reason => throw (.store reason)

/-- Writes to the store, unless it refuses. -/
def write (change : Store → Except StoreError Store) : Work Unit := do
  let store ← ask change
  modify fun c => { c with store }

end Work

/-- Considers one function, and writes its link if a source function is found. -/
def settle (resolve : Probe → Outcome) (summary : Summary) (r : Row BinaryFunction) :
    Work Summary :=
  match probeOf? summary.unit.name r.value with
  | none => return summary.addFailure
  | some probe =>
    match resolve probe with
    | .linked source basis => do
      Work.write (·.setMatch r.id source)
      return summary.addOutcome (.linked source basis)
    | .unmatched reason => return summary.addOutcome (.unmatched reason)

/-- A pass up to the point where it is decided whether its links stay. -/
def work (request : Request) (policy : Policy) : Work Summary := do
  let unit := request.unit
  let known ← Work.ask fun s => .ok (s.findCrate? unit).isSome
  if !known then throw (.unknownCrate unit)
  let candidates ← Work.ask (candidates · request)
  let functions ← Work.ask (·.unmatchedFunctions unit.name)
  let summary ← functions.foldlM (settle (resolve policy.tieBreak candidates)) (.start unit)
  let unparsed ← Work.ask (·.crateFunctions unit.name .unknownFormat)
  return countUnparsed summary unparsed

/-- A pass in a transaction of its own. The note of a pass that fails too often is written when its
links are gone. -/
def transact (request : Request) (policy : Policy) (times : Times) (c : Connection) :
    Except PassError Summary × Connection :=
  match c.begin with
  | .error reason => (.error (.store reason), c)
  | .ok opened =>
    match (work request policy).on opened with
    | (.error e, left) => (.error e, left.rollback)
    | (.ok summary, left) =>
      if exceeds summary.failures summary.considered policy.maxFailureRatio then
        (.error (.tooManyFailures summary.failures summary.considered policy.maxFailureRatio),
          left.rollback.addRun (summary.run .rolledBack times))
      else (.ok summary, (left.addRun (summary.run .committed times)).commit)

end CrateTrace.Matching
