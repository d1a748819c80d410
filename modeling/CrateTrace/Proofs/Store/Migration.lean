import CrateTrace.Store.Database

/-!
# Opening database files

A file is brought to the current version in steps, each of which is written as a whole. The rows that
are there stay. A file with the tables of its version has all tables afterwards, unless its version is
older than the oldest: such a file is taken for one that lacks the table of runs only.
-/

namespace CrateTrace.Store.Database

/-! ## Step by step -/

namespace Steps

variable {d d' : Database} {e : StoreError} {steps : Steps Unit}

theorem on_bind_ok (h : steps.on d = (.ok (), d')) (next : Unit → Steps Unit) :
    (steps >>= next).on d = (next ()).on d' := by
  unfold on at h ⊢
  rw [ExceptT.run_bind, StateT.run_bind, h]
  rfl

theorem on_bind_error (h : steps.on d = (.error e, d')) (next : Unit → Steps Unit) :
    (steps >>= next).on d = (.error e, d') := by
  unfold on at h ⊢
  rw [ExceptT.run_bind, StateT.run_bind, h]
  rfl

theorem refuseNewer_newer (h : currentVersion < d.version) :
    refuseNewer.on d = (.error (.unsupportedVersion d.version), d) := by
  change Steps.on (if currentVersion < d.version then throw _ else pure ()) d = _
  rw [if_pos h]
  rfl

theorem refuseNewer_known (h : d.version ≤ currentVersion) : refuseNewer.on d = (.ok (), d) := by
  change Steps.on (if currentVersion < d.version then throw _ else pure ()) d = _
  rw [if_neg (Int.not_lt.2 h)]
  rfl

theorem on_makeUnits (d : Database) :
    makeUnits.on d = (.ok (), if d.version = oldestVersion then d.addUnits else d) := by
  change Steps.on (if d.version = oldestVersion then modify addUnits else pure ()) d = _
  split <;> rfl

theorem on_makeRuns (d : Database) :
    makeRuns.on d = (.ok (), if d.version < currentVersion then d.addRuns else d) := by
  change Steps.on (if d.version < currentVersion then modify addRuns else pure ()) d = _
  split <;> rfl

end Steps

/-- The four ways in which opening a file can end. A version older than the oldest is not refused, and
its file gets the table of version 2 only. -/
theorem opening_cases (d : Database) :
    (currentVersion < d.version ∧ d.opening = (.error (.unsupportedVersion d.version), d)) ∨
    (d.version = oldestVersion ∧ d.opening = (.ok (), d.addUnits.addRuns)) ∨
    (d.version ≠ oldestVersion ∧ d.version < currentVersion ∧ d.opening = (.ok (), d.addRuns)) ∨
    (d.version = currentVersion ∧ d.opening = (.ok (), d)) := by
  by_cases hnewer : currentVersion < d.version
  · exact .inl ⟨hnewer, Steps.on_bind_error (Steps.refuseNewer_newer hnewer) _⟩
  have hknown : d.version ≤ currentVersion := Int.not_lt.1 hnewer
  have hsteps : d.opening = (do Steps.makeUnits; Steps.makeRuns : Steps Unit).on d :=
    Steps.on_bind_ok (Steps.refuseNewer_known hknown) _
  rw [hsteps, Steps.on_bind_ok (Steps.on_makeUnits d), Steps.on_makeRuns]
  by_cases hblank : d.version = oldestVersion
  · rw [if_pos hblank]
    exact .inr (.inl ⟨hblank, rfl⟩)
  rw [if_neg hblank]
  by_cases hlacks : d.version < currentVersion
  · rw [if_pos hlacks]
    exact .inr (.inr (.inl ⟨hblank, hlacks, rfl⟩))
  · rw [if_neg hlacks]
    exact .inr (.inr (.inr ⟨Int.le_antisymm hknown (Int.not_lt.1 hlacks), rfl⟩))

/-- Opening a file step by step brings it to the current version, and a file that is refused stays as
it is. -/
theorem opening_eq (d : Database) :
    d.opening =
      match d.migrate with
      | .error e => (.error e, d)
      | .ok d' => (.ok (), d') := by
  unfold migrate
  rcases opening_cases d with ⟨hnewer, h⟩ | ⟨hblank, h⟩ | ⟨hblank, hlacks, h⟩ | ⟨hcurrent, h⟩
  · simp [h, hnewer]
  · rw [h, if_neg (by rw [hblank]; decide), if_pos hblank]
    rfl
  · simp [h, hblank, hlacks, Int.not_lt.2 (Int.le_of_lt hlacks)]
  · have hblank : currentVersion ≠ oldestVersion := by decide
    simp [h, hcurrent, hblank]

theorem opening_current {d : Database} (h : d.version = currentVersion) :
    d.opening = (.ok (), d) := by
  rcases opening_cases d with ⟨hnewer, -⟩ | ⟨hblank, -⟩ | ⟨-, hlacks, -⟩ | ⟨-, hopen⟩
  · rw [h] at hnewer
    exact absurd hnewer (Int.lt_irrefl _)
  · rw [h] at hblank
    exact absurd hblank (by decide)
  · rw [h] at hlacks
    exact absurd hlacks (Int.lt_irrefl _)
  · exact hopen

/-! ## Rows -/

/-- The table stays, or it is made. -/
inductive Stays {α : Type} : Option (Table α) → Option (Table α) → Prop where
  | same (table : Option (Table α)) : Stays table table
  | made : Stays none (some .empty)

theorem stays_made {α : Type} (table : Option (Table α)) :
    Stays table (some (table.getD .empty)) := by
  cases table with
  | none => exact .made
  | some t => exact .same (some t)

theorem Stays.trans {α : Type} {t t' t'' : Option (Table α)} (h : Stays t t') (h' : Stays t' t'') :
    Stays t t'' := by
  cases h with
  | same => exact h'
  | made =>
    cases h'
    exact .made

/-- No row is lost, changed or added. -/
structure Keeps (d d' : Database) : Prop where
  crates : Stays d.crates d'.crates
  binaries : Stays d.binaries d'.binaries
  sources : Stays d.sources d'.sources
  functions : Stays d.functions d'.functions
  runs : Stays d.runs d'.runs

namespace Keeps

variable {d d' d'' : Database}

theorem refl (d : Database) : Keeps d d := ⟨.same _, .same _, .same _, .same _, .same _⟩

theorem trans (h : Keeps d d') (h' : Keeps d' d'') : Keeps d d'' :=
  ⟨h.crates.trans h'.crates, h.binaries.trans h'.binaries, h.sources.trans h'.sources,
    h.functions.trans h'.functions, h.runs.trans h'.runs⟩

theorem addUnits (d : Database) : Keeps d d.addUnits :=
  ⟨stays_made _, stays_made _, stays_made _, stays_made _, .same _⟩

theorem addRuns (d : Database) : Keeps d d.addRuns :=
  ⟨.same _, .same _, .same _, .same _, stays_made _⟩

end Keeps

/-! ## Tables -/

/-- The tables of version 1. -/
structure HasUnits (d : Database) : Prop where
  crates : d.crates.isSome
  binaries : d.binaries.isSome
  sources : d.sources.isSome
  functions : d.functions.isSome

/-- A file has the tables of its version. -/
structure Promised (d : Database) : Prop where
  units : oldestVersion < d.version → d.HasUnits
  runs : d.version = currentVersion → d.runs.isSome

theorem hasUnits_addUnits (d : Database) : d.addUnits.HasUnits := ⟨rfl, rfl, rfl, rfl⟩

theorem hasUnits_addRuns {d : Database} : d.addRuns.HasUnits ↔ d.HasUnits :=
  ⟨fun ⟨hcrates, hbinaries, hsources, hfunctions⟩ => ⟨hcrates, hbinaries, hsources, hfunctions⟩,
    fun ⟨hcrates, hbinaries, hsources, hfunctions⟩ => ⟨hcrates, hbinaries, hsources, hfunctions⟩⟩

theorem exists_store_iff {d : Database} :
    (∃ s, d.store = .ok s) ↔ d.HasUnits ∧ d.runs.isSome := by
  obtain ⟨version, crates, binaries, sources, functions, runs⟩ := d
  constructor
  · rintro ⟨s, hs⟩
    unfold store at hs
    split at hs
    · rename_i hcrates hbinaries hsources hfunctions hruns
      simp only at hcrates hbinaries hsources hfunctions hruns
      subst hcrates hbinaries hsources hfunctions hruns
      exact ⟨⟨rfl, rfl, rfl, rfl⟩, rfl⟩
    all_goals cases hs
  · rintro ⟨⟨hcrates, hbinaries, hsources, hfunctions⟩, hruns⟩
    simp only [Option.isSome_iff_exists] at hcrates hbinaries hsources hfunctions hruns
    obtain ⟨crates, rfl⟩ := hcrates
    obtain ⟨binaries, rfl⟩ := hbinaries
    obtain ⟨sources, rfl⟩ := hsources
    obtain ⟨functions, rfl⟩ := hfunctions
    obtain ⟨runs, rfl⟩ := hruns
    exact ⟨_, rfl⟩

/-! ## Opened files -/

/-- A file that is newer than the current version is refused and left as it is. All others are opened
and brought to that version, with their rows as they were, and opening them again changes nothing.
Nothing is missing afterwards unless the version was below the oldest. -/
theorem opening_keeps_rows {d : Database} (promised : d.Promised) :
    (currentVersion < d.version → d.opening = (.error (.unsupportedVersion d.version), d)) ∧
    (d.version ≤ currentVersion → ∃ d', d.opening = (.ok (), d') ∧ d'.version = currentVersion ∧
      Keeps d d' ∧ d'.opening = (.ok (), d') ∧
      ((∃ s, d'.store = .ok s) ↔ oldestVersion ≤ d.version ∨ d.HasUnits)) := by
  rcases opening_cases d with ⟨hnewer, h⟩ | ⟨hblank, h⟩ | ⟨hblank, hlacks, h⟩ | ⟨hcurrent, h⟩
  · exact ⟨fun _ => h, fun hknown => absurd hnewer (Int.not_lt.2 hknown)⟩
  · refine ⟨fun hnewer => ?_, fun _ => ⟨_, h, rfl, (Keeps.addUnits d).trans (Keeps.addRuns _),
      opening_current rfl, ?_⟩⟩
    · rw [hblank] at hnewer
      exact absurd hnewer (by decide)
    · rw [exists_store_iff, hasUnits_addRuns]
      exact iff_of_true ⟨hasUnits_addUnits d, rfl⟩ (.inl (Int.le_of_eq hblank.symm))
  · refine ⟨fun hnewer => absurd hnewer (Int.not_lt.2 (Int.le_of_lt hlacks)), fun _ => ⟨_, h, rfl,
      Keeps.addRuns d, opening_current rfl, ?_⟩⟩
    rw [exists_store_iff, hasUnits_addRuns]
    constructor
    · rintro ⟨hunits, -⟩
      exact .inr hunits
    · rintro (hknown | hunits)
      · have hfirst : oldestVersion < d.version := by omega
        exact ⟨promised.units hfirst, rfl⟩
      · exact ⟨hunits, rfl⟩
  · refine ⟨fun hnewer => ?_, fun _ => ⟨d, h, hcurrent, .refl d, opening_current hcurrent, ?_⟩⟩
    · rw [hcurrent] at hnewer
      exact absurd hnewer (Int.lt_irrefl _)
    · have hfirst : oldestVersion < d.version := by rw [hcurrent]; decide
      rw [exists_store_iff]
      exact iff_of_true ⟨promised.units hfirst, promised.runs hcurrent⟩
        (.inl (Int.le_of_lt hfirst))

theorem opening_keeps_rows_sample :
    let d := { ofStore ((Store.empty.addCrate ⟨"app", "1"⟩).addBinary ⟨"b", none⟩) with
      version := 1, runs := none }
    d.Promised ∧ ∃ d' s, d.opening = (.ok (), d') ∧ d'.store = .ok s ∧
      s.crates.rows = [⟨1, ⟨"app", "1"⟩⟩] ∧ s.binaries.rows = [⟨1, ⟨"b", none⟩⟩] ∧
      s.runs.rows = [] := by
  intro d
  have promised : d.Promised := ⟨fun _ => ⟨rfl, rfl, rfl, rfl⟩, fun h => absurd h (by decide)⟩
  obtain ⟨-, hopened⟩ := opening_keeps_rows promised
  obtain ⟨d', hopen, -, hkeeps, -, hstore⟩ := hopened (by decide)
  obtain ⟨s, hs⟩ := hstore.2 (.inl (by decide))
  have hruns : d' = d.addRuns := (congrArg Prod.snd hopen).symm
  subst hruns
  cases hs
  exact ⟨promised, _, _, hopen, rfl, by decide, by decide, rfl⟩

/-- The version is below the oldest, and no tables come with it. The file is opened and left at the
current version with the table of runs alone. -/
theorem opening_below_oldest :
    let d := blank (-1)
    d.Promised ∧ d.version < oldestVersion ∧ d.opening.1 = .ok () ∧
      d.opening.2.version = currentVersion ∧ d.opening.2.tableNames = ["match_runs"] := by
  refine ⟨⟨?_, ?_⟩, by decide, rfl, rfl, rfl⟩
  · intro h
    exact absurd h (by decide)
  · intro h
    exact absurd h (by decide)

end CrateTrace.Store.Database
