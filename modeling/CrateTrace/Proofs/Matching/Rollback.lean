import CrateTrace.Matching.Transaction
import CrateTrace.Proofs.Matching.Committed
import CrateTrace.Proofs.Matching.Reading

/-!
# Passes that are taken back

A pass in a transaction writes link by link, and yet comes to what it comes to when all its links are
made at once. If it fails, nothing is left of it but the note of its run.
-/

namespace CrateTrace.Matching

open Correlation Name Store

/-! ## Work on a connection -/

namespace Work

variable {α β : Type} {w : Work α} {c left : Connection}

theorem on_bind_ok {a : α} (h : w.on c = (.ok a, left)) (next : α → Work β) :
    (w >>= next).on c = (next a).on left := by
  unfold on at h ⊢
  rw [ExceptT.run_bind, StateT.run_bind, h]
  rfl

theorem on_bind_error {e : PassError} (h : w.on c = (.error e, left)) (next : α → Work β) :
    (w >>= next).on c = (.error e, left) := by
  unfold on at h ⊢
  rw [ExceptT.run_bind, StateT.run_bind, h]
  rfl

theorem on_ask (question : Store → Except StoreError α) (c : Connection) :
    (ask question).on c = ((question c.store).mapError .store, c) := by
  unfold ask
  rw [on_bind_ok (show (get : Work Connection).on c = (.ok c, c) from rfl)]
  cases question c.store <;> rfl

theorem on_ask_ok {question : Store → Except StoreError α} {a : α}
    (h : question c.store = .ok a) : (ask question).on c = (.ok a, c) := by
  rw [on_ask, h]
  rfl

theorem on_ask_error {question : Store → Except StoreError α} {reason : StoreError}
    (h : question c.store = .error reason) :
    (ask question).on c = (.error (.store reason), c) := by
  rw [on_ask, h]
  rfl

theorem on_write {change : Store → Except StoreError Store} {s : Store}
    (h : change c.store = .ok s) : (write change).on c = (.ok (), { c with store := s }) := by
  unfold write
  rw [on_bind_ok (on_ask_ok h)]
  rfl

end Work

/-! ## The loop -/

theorem contains_consider (resolve : Probe → Outcome) (t : Summary) (s : Store)
    (r : Row BinaryFunction) (id : RowId) :
    (consider resolve (t, s) r).2.sources.contains id = s.sources.contains id := by
  simp only [consider]
  split
  · rfl
  · split
    · exact Table.contains_modify s.sources _ id
    · rfl

/-- One step. The store does not refuse its link, as it leads to a source function that is there. -/
theorem on_settle {resolve : Probe → Outcome} {c : Connection}
    (hresolve : ∀ probe id, (resolve probe).source? = some id → c.store.sources.contains id)
    (t : Summary) (r : Row BinaryFunction) :
    (settle resolve t r).on c =
      (.ok (consider resolve (t, c.store) r).1,
        { c with store := (consider resolve (t, c.store) r).2 }) := by
  simp only [settle, consider]
  cases probeOf? t.unit.name r.value with
  | none => rfl
  | some probe =>
    cases houtcome : resolve probe with
    | linked source basis =>
      have hthere : c.store.sources.contains source :=
        hresolve probe source (by rw [houtcome]; rfl)
      have hlink : c.store.setMatch r.id source = .ok (c.store.link r.id source) := by
        simp [setMatch, hthere]
      simp only [houtcome]
      exact Work.on_bind_ok (Work.on_write hlink) _
    | unmatched reason =>
      simp only [houtcome]
      rfl

theorem on_foldlM_settle {resolve : Probe → Outcome} (fs : List (Row BinaryFunction)) (t : Summary)
    {c : Connection}
    (hresolve : ∀ probe id, (resolve probe).source? = some id → c.store.sources.contains id) :
    (fs.foldlM (settle resolve) t).on c =
      (.ok (fs.foldl (consider resolve) (t, c.store)).1,
        { c with store := (fs.foldl (consider resolve) (t, c.store)).2 }) := by
  induction fs generalizing t c with
  | nil => rfl
  | cons r fs ih =>
    rw [List.foldlM_cons, Work.on_bind_ok (on_settle hresolve t r), ih]
    · rfl
    · intro probe id hid
      rw [contains_consider]
      exact hresolve probe id hid

/-! ## The work of a pass -/

/-- It leaves the transaction open, and comes to the same counts and links as if the links were made
when everything has been read. -/
theorem work_cases (request : Request) (policy : Policy) (c : Connection) :
    (c.store.findCrate? request.unit = none ∧
      (work request policy).on c = (.error (.unknownCrate request.unit), c)) ∨
    (c.store.findCrate? request.unit ≠ none ∧ ∃ reason left,
      linkAll c.store request policy = .error reason ∧ left.saved = c.saved ∧
      (work request policy).on c = (.error (.store reason), left)) ∨
    (c.store.findCrate? request.unit ≠ none ∧ ∃ summary linked,
      linkAll c.store request policy = .ok (summary, linked) ∧
      (work request policy).on c = (.ok summary, { c with store := linked })) := by
  have hknown : (Work.ask fun s => .ok (s.findCrate? request.unit).isSome).on c =
      (.ok (c.store.findCrate? request.unit).isSome, c) := Work.on_ask_ok rfl
  unfold work linkAll
  rw [Work.on_bind_ok hknown]
  cases hcrate : c.store.findCrate? request.unit with
  | none => exact .inl ⟨rfl, rfl⟩
  | some row =>
    right
    simp only [Option.isSome_some, Bool.not_true, Bool.false_eq_true, if_false]
    cases hcandidates : candidates c.store request with
    | error reason =>
      exact .inl ⟨by simp, reason, c, rfl, rfl, Work.on_bind_error (Work.on_ask_error hcandidates) _⟩
    | ok cs =>
      rw [Work.on_bind_ok (Work.on_ask_ok hcandidates)]
      cases hfunctions : c.store.unmatchedFunctions request.unit.name with
      | error reason =>
        exact .inl ⟨by simp, reason, c, rfl, rfl, Work.on_bind_error (Work.on_ask_error hfunctions) _⟩
      | ok fs =>
        have hresolve : ∀ probe id, (resolve policy.tieBreak cs probe).source? = some id →
            c.store.sources.contains id := by
          intro probe id hid
          rw [candidates_ok hcandidates] at hid
          exact Table.contains_iff.2 (row_of_resolve hid)
        rw [Work.on_bind_ok (Work.on_ask_ok hfunctions),
          Work.on_bind_ok (on_foldlM_settle fs _ hresolve)]
        simp only [foldl_pending hcandidates hfunctions]
        -- What the links change is not among the functions that are read now.
        have hsame := crateFunctions_passLinks c.store request policy request.unit.name
          (show Status.unknownFormat ≠ .ok by decide)
        cases hunparsed : c.store.crateFunctions request.unit.name .unknownFormat with
        | error reason =>
          exact .inl ⟨by simp, reason, ⟨passLinks c.store request policy, c.saved⟩, rfl, rfl,
            Work.on_bind_error (Work.on_ask_error (hsame.trans hunparsed)) _⟩
        | ok us =>
          refine .inr ⟨by simp, _, _, rfl, ?_⟩
          rw [foldl_pending hcandidates hfunctions]
          exact Work.on_bind_ok (Work.on_ask_ok (hsame.trans hunparsed)) _

/-! ## The transaction -/

/-- The ways in which a transaction can end. Whatever the work has left is gone in all but the last,
in which the links are there before it is decided whether they stay. -/
theorem transact_cases (request : Request) (policy : Policy) (times : Times) (c : Connection) :
    (c.saved ≠ none ∧
      transact request policy times c = (.error (.store .nestedTransaction), c)) ∨
    (c.saved = none ∧ c.store.findCrate? request.unit = none ∧
      transact request policy times c = (.error (.unknownCrate request.unit), c)) ∨
    (c.saved = none ∧ c.store.findCrate? request.unit ≠ none ∧ ∃ reason,
      linkAll c.store request policy = .error reason ∧
      transact request policy times c = (.error (.store reason), c)) ∨
    (c.saved = none ∧ c.store.findCrate? request.unit ≠ none ∧ ∃ summary linked,
      linkAll c.store request policy = .ok (summary, linked) ∧
      (work request policy).on ⟨c.store, some c.store⟩ = (.ok summary, ⟨linked, some c.store⟩) ∧
      transact request policy times c =
        if exceeds summary.failures summary.considered policy.maxFailureRatio then
          (.error (.tooManyFailures summary.failures summary.considered policy.maxFailureRatio),
            c.addRun (summary.run .rolledBack times))
        else (.ok summary, ⟨linked.addRun (summary.run .committed times), none⟩)) := by
  obtain ⟨s, saved⟩ := c
  cases saved with
  | some old => exact .inl ⟨by simp, rfl⟩
  | none =>
    have hbegin : Connection.begin ⟨s, none⟩ = .ok ⟨s, some s⟩ := rfl
    right
    unfold transact
    rw [hbegin]
    rcases work_cases request policy ⟨s, some s⟩ with ⟨hcrate, hwork⟩ |
      ⟨hcrate, reason, left, hlinks, hsaved, hwork⟩ | ⟨hcrate, summary, linked, hlinks, hwork⟩
    · refine .inl ⟨rfl, hcrate, ?_⟩
      simp only [hwork]
      rfl
    · refine .inr (.inl ⟨rfl, hcrate, reason, hlinks, ?_⟩)
      simp only [hwork, Connection.rollback, hsaved, Option.getD_some]
    · refine .inr (.inr ⟨rfl, hcrate, summary, linked, hlinks, hwork, ?_⟩)
      simp only [hwork]
      rfl

/-- Link by link in a transaction, or all links at once: the answer and the store are the same. -/
theorem transact_eq (request : Request) (policy : Policy) (times : Times) (c : Connection) :
    transact request policy times c =
      match c.isolated fun s => pass s request policy times with
      | .error reason => (.error (.store reason), c)
      | .ok result => result := by
  obtain ⟨s, saved⟩ := c
  rcases transact_cases request policy times ⟨s, saved⟩ with ⟨hsaved, h⟩ | ⟨rfl, hcrate, h⟩ |
    ⟨rfl, hcrate, reason, hlinks, h⟩ | ⟨rfl, hcrate, summary, linked, hlinks, -, h⟩
  · obtain ⟨old, rfl⟩ := Option.ne_none_iff_exists'.1 hsaved
    exact h
  · simp [h, Connection.isolated, Connection.begin, Connection.commit, pass, hcrate]
  · simp [h, Connection.isolated, Connection.begin, Connection.commit, pass, hcrate, hlinks]
  · simp only [h, Connection.isolated, Connection.begin, Connection.commit, pass, hlinks,
      Option.isNone_iff_eq_none, hcrate, if_false]
    split <;> rfl

theorem transact_none (s : Store) (request : Request) (policy : Policy) (times : Times) :
    transact request policy times ⟨s, none⟩ =
      ((pass s request policy times).1, ⟨(pass s request policy times).2, none⟩) :=
  transact_eq request policy times ⟨s, none⟩

theorem transact_some (s old : Store) (request : Request) (policy : Policy) (times : Times) :
    transact request policy times ⟨s, some old⟩ =
      (.error (.store .nestedTransaction), ⟨s, some old⟩) :=
  transact_eq request policy times ⟨s, some old⟩

end CrateTrace.Matching
