import CrateTrace.Mangling.Standard
import CrateTrace.Project.Config
import CrateTrace.Proofs.Ingest.Outcomes
import CrateTrace.Proofs.Matching.Independence

/-!
# Which crates a project wants

The wish decides on the statuses of functions, each by its own crate. A pass does not read the
statuses of other crates. So two projects that want a crate have the same of it, whatever else they
want.
-/

namespace CrateTrace

open Mangling Name Program Store

/-! ## What concerns one crate -/

namespace Store

/-- A function, without its status if it belongs to another crate. -/
def BinaryColumns.seenBy (crate : String) (f : BinaryColumns) : BinaryColumns :=
  if f.crate = crate then f else { f with status := .integer 0 }

variable {crate : String}

theorem BinaryColumns.seenBy_own {f : BinaryColumns} (h : f.crate = crate) :
    f.seenBy crate = f := if_pos h

@[simp] theorem BinaryColumns.crate_seenBy (f : BinaryColumns) :
    (f.seenBy crate).crate = f.crate := by
  unfold seenBy
  split <;> rfl

@[simp] theorem BinaryColumns.matchedSource_seenBy (f : BinaryColumns) :
    (f.seenBy crate).matchedSource = f.matchedSource := by
  unfold seenBy
  split <;> rfl

theorem BinaryColumns.seenBy_relink (f : BinaryColumns) (target : Option RowId) :
    (f.relink target).seenBy crate = (f.seenBy crate).relink target := by
  unfold seenBy relink
  split <;> rfl

/-- Stores that differ in the statuses of functions of other crates at most. -/
structure SameFor (crate : String) (s s' : Store) : Prop where
  crates : s'.crates = s.crates
  binaries : s'.binaries = s.binaries
  sources : s'.sources = s.sources
  functions : s'.functions.modify (fun r => r.value.seenBy crate) =
    s.functions.modify fun r => r.value.seenBy crate

namespace SameFor

variable {s s' : Store}

theorem refl (crate : String) (s : Store) : SameFor crate s s := ⟨rfl, rfl, rfl, rfl⟩

theorem own_rows (h : SameFor crate s s') :
    s'.functions.rows.filter (·.value.crate == crate) =
      s.functions.rows.filter (·.value.crate == crate) := by
  have hown : ∀ t : Table BinaryColumns,
      (t.modify fun r => r.value.seenBy crate).rows.filter (·.value.crate == crate) =
        t.rows.filter (·.value.crate == crate) := by
    intro t
    refine Table.filter_modify (fun r _ => by simp) fun r _ hr => ?_
    exact BinaryColumns.seenBy_own (by simpa using hr)
  rw [← hown, h.functions, hown]

theorem alike (h : SameFor crate s s') : Matching.Alike crate s s' := by
  refine ⟨h.crates, ⟨fun r => r.value.matched, ?_⟩, h.own_rows⟩
  rw [h.sources]
  exact (Table.modify_id s.sources).symm

theorem links (h : SameFor crate s s') :
    s'.functions.rows.map (fun r => (r.id, r.value.matchedSource)) =
      s.functions.rows.map fun r => (r.id, r.value.matchedSource) := by
  have hlinks := congrArg (fun t => t.rows.map fun r => (r.id, r.value.matchedSource)) h.functions
  simpa [Function.comp_def] using hlinks

end SameFor

end Store

/-! ## Dumps -/

namespace Ingest

variable {wants wants' : String → Bool} {crate : String}

theorem statusOf_congr {d : Declaration}
    (h : ∀ crate, d.crateName = some crate → wants' crate = wants crate) (entry : FunctionDump) :
    statusOf wants' d entry = statusOf wants d entry := by
  unfold statusOf
  cases hcrate : d.crateName with
  | none => rfl
  | some crate => simp only [h crate hcrate]

theorem seenBy_congr {f g : BinaryFunction} (hsame : g = { f with status := g.status })
    (hstatus : f.crate = crate → g.status = f.status) (binaryId : RowId) :
    (BinaryColumns.ofFunction binaryId g).seenBy crate =
      (BinaryColumns.ofFunction binaryId f).seenBy crate := by
  by_cases hcrate : f.crate = crate
  · rw [hsame, hstatus hcrate]
  · rw [hsame]
    unfold BinaryColumns.seenBy
    rw [if_neg (by exact hcrate), if_neg (by exact hcrate)]
    rfl

/-- The two ways to a status, for names that can be parsed and for those that cannot, both ask for the
function's own crate only. -/
theorem functionOf_seenBy (demangler : Demangler) (h : wants' crate = wants crate)
    (binaryId : RowId) (binary key : String) (entry : FunctionDump) :
    (functionOf? demangler wants' binary key entry).map
        (fun f => (BinaryColumns.ofFunction binaryId f).seenBy crate) =
      (functionOf? demangler wants binary key entry).map
        fun f => (BinaryColumns.ofFunction binaryId f).seenBy crate := by
  unfold functionOf?
  split
  · rfl
  split
  case h_2 => rfl
  case h_1 address fullName _ _ =>
    cases parse fullName with
    | ok d =>
      refine congrArg some (seenBy_congr rfl (fun hcrate => ?_) binaryId)
      refine statusOf_congr (fun named hnamed => ?_) entry
      have hown : named = crate := by simpa [parsedFunction, hnamed] using hcrate
      rw [hown, h]
    | error e =>
      simp only [unparsedFunction?, Option.map_map]
      refine Option.map_congr fun named _ => ?_
      refine seenBy_congr rfl (fun hcrate => ?_) binaryId
      have hown : named = crate := hcrate
      simp only [hown, h]

theorem functionsOfDump_seenBy (demangler : Demangler) (h : wants' crate = wants crate)
    (binaryId : RowId) (binary : String) (dump : Dump) :
    (functionsOfDump demangler wants' binary dump).map
        (fun f => (BinaryColumns.ofFunction binaryId f).seenBy crate) =
      (functionsOfDump demangler wants binary dump).map
        fun f => (BinaryColumns.ofFunction binaryId f).seenBy crate := by
  unfold functionsOfDump
  rw [List.map_filterMap, List.map_filterMap]
  exact List.filterMap_congr fun entry _ =>
    functionOf_seenBy demangler h binaryId binary entry.1 entry.2

theorem sameFor_putFunctions {records records' : List BinaryFunction} {binaryId : RowId}
    (h : records'.map (fun f => (BinaryColumns.ofFunction binaryId f).seenBy crate) =
      records.map fun f => (BinaryColumns.ofFunction binaryId f).seenBy crate) (s : Store) :
    SameFor crate (putFunctions s binaryId records) (putFunctions s binaryId records') := by
  refine ⟨rfl, rfl, rfl, ?_⟩
  unfold putFunctions
  rw [Table.modify_insertAll, Table.modify_insertAll, List.map_map, List.map_map]
  exact congrArg _ h

theorem fillBinary_seenBy (demangler : Demangler) (h : wants' crate = wants crate) (s : Store)
    (binaryId : RowId) (binary : String) (dump : Dump) :
    (fillBinary demangler s binaryId wants' binary dump).1 =
        (fillBinary demangler s binaryId wants binary dump).1 ∧
      SameFor crate (fillBinary demangler s binaryId wants binary dump).2
        (fillBinary demangler s binaryId wants' binary dump).2 := by
  have hfunctions := functionsOfDump_seenBy demangler h binaryId binary dump
  have hlength := congrArg List.length hfunctions
  rw [List.length_map, List.length_map] at hlength
  rw [fillBinary_eq, fillBinary_eq]
  exact ⟨congrArg (taken dump.length) hlength, sameFor_putFunctions hfunctions s⟩

theorem ingestDump_seenBy (demangler : Demangler) (h : wants' crate = wants crate) (s : Store)
    (binary : Binary) (dump : Dump) (force : Bool) :
    (ingestDump demangler s wants' binary dump force).1 =
        (ingestDump demangler s wants binary dump force).1 ∧
      SameFor crate (ingestDump demangler s wants binary dump force).2
        (ingestDump demangler s wants' binary dump force).2 := by
  unfold ingestDump
  generalize s.ensureBinary binary = ensured
  obtain ⟨row, created, s'⟩ := ensured
  dsimp only
  split
  · exact fillBinary_seenBy demangler h _ _ _ _
  split
  · exact fillBinary_seenBy demangler h _ _ _ _
  · exact ⟨rfl, .refl crate s⟩

end Ingest

/-! ## Passes -/

namespace Matching

variable {s s' : Store} {request : Request}

theorem linkAfter_seenBy (policy : Policy) (times : Times) (f : BinaryColumns) :
    linkAfter s request policy times (f.seenBy request.unit.name) =
      linkAfter s request policy times f := by
  by_cases hcrate : f.crate = request.unit.name
  · rw [BinaryColumns.seenBy_own hcrate]
  · have hother : (f.seenBy request.unit.name).crate ≠ request.unit.name := by simpa using hcrate
    rw [linkAfter_other hcrate, linkAfter_other hother, BinaryColumns.matchedSource_seenBy]

theorem functions_pass_seenBy (s : Store) (request : Request) (policy : Policy) (times : Times) :
    ((pass s request policy times).2.functions.modify fun r => r.value.seenBy request.unit.name) =
      (s.functions.modify fun r => r.value.seenBy request.unit.name).modify fun r =>
        r.value.relink (linkAfter s request policy times r.value) := by
  obtain ⟨-, -, -, hfunctions⟩ := pass_relinks s request policy times
  rw [hfunctions, Table.modify_modify, Table.modify_modify]
  refine Table.modify_congr fun r _ => ?_
  rw [BinaryColumns.seenBy_relink, linkAfter_seenBy]

theorem sameFor_pass (h : SameFor request.unit.name s s') (policy : Policy) (times times' : Times) :
    SameFor request.unit.name (pass s request policy times).2 (pass s' request policy times').2 := by
  obtain ⟨hcrates, hbinaries, hsources, -⟩ := pass_relinks s request policy times
  obtain ⟨hcrates', hbinaries', hsources', -⟩ := pass_relinks s' request policy times'
  refine ⟨?_, ?_, ?_, ?_⟩
  · rw [hcrates, hcrates', h.crates]
  · rw [hbinaries, hbinaries', h.binaries]
  · rw [hsources, hsources', h.sources]
    exact Table.modify_congr fun r _ => by rw [h.alike.isMarkedBy policy times times']
  · rw [functions_pass_seenBy, functions_pass_seenBy, h.functions]
    exact Table.modify_congr fun r _ => by rw [h.alike.linkAfter policy times times']

end Matching

/-! ## Two projects -/

namespace Project

open Ingest Matching

/-- Two projects that both want a crate take in a dump with the same answer and have the same
functions of the crate. A pass of the crate has the same answer in both, at whatever times, and the
same links are made. -/
theorem wanted_crate_is_unaffected (demangler : Demangler) (first second : Config) {crate : String}
    (hfirst : first.wants crate = true) (hsecond : second.wants crate = true) (c : Connection)
    (binary : Binary) (dump : Dump) (force : Bool) :
    let one := ingestDump demangler c.store first.wants binary dump force
    let other := ingestDump demangler c.store second.wants binary dump force
    other.1 = one.1 ∧ SameFor crate one.2 other.2 ∧
      other.2.functions.rows.filter (·.value.crate == crate) =
        one.2.functions.rows.filter (·.value.crate == crate) ∧
      ∀ (version : String) (extra : List CrateVersion) (policy : Policy) (times times' : Times),
        let request : Request := ⟨⟨crate, version⟩, extra⟩
        let onePass := transact request policy times { c with store := one.2 }
        let otherPass := transact request policy times' { c with store := other.2 }
        otherPass.1 = onePass.1 ∧ SameFor crate onePass.2.store otherPass.2.store ∧
          otherPass.2.store.functions.rows.map (fun r => (r.id, r.value.matchedSource)) =
            onePass.2.store.functions.rows.map fun r => (r.id, r.value.matchedSource) := by
  intro one other
  obtain ⟨hanswer, hsame⟩ :=
    ingestDump_seenBy demangler (hsecond.trans hfirst.symm) c.store binary dump force
  refine ⟨hanswer, hsame, hsame.own_rows, ?_⟩
  intro version extra policy times times' request onePass otherPass
  have hpasses : otherPass.1 = onePass.1 ∧ SameFor crate onePass.2.store otherPass.2.store := by
    unfold onePass otherPass
    cases c.saved with
    | some old =>
      rw [transact_some, transact_some]
      exact ⟨rfl, hsame⟩
    | none =>
      have hrequest : SameFor request.unit.name one.2 other.2 := hsame
      rw [transact_none, transact_none]
      exact ⟨hrequest.alike.answer policy times times', sameFor_pass hrequest policy times times'⟩
  exact ⟨hpasses.1, hpasses.2, hpasses.2.links⟩

/-- A dump with a function of each of two crates, of which the second project wants both. -/
theorem wanted_crate_is_unaffected_sample :
    let entry (name : String) : FunctionDump :=
      { name, isRust := true, edges := [], blocks := [(0, ["ret"])],
        signature := "c3" ++ String.ofList (List.replicate 62 '-') }
    let dump : Dump := [("00000010", entry "_ZN3app3run17h0123456789abcdefE"),
      ("00000020", entry "_ZN3net3run17h0123456789abcdefE")]
    let first := { Config.start "first" "first.db" with wantedCrates := ["app"] }
    let second := Config.start "second" "second.db"
    let s := (ingestSources .empty ⟨"app", "1"⟩ [[.str "fn \x7bapp::run\x7d"]] false).2
    let one := ingestDump standard s first.wants ⟨"b", none⟩ dump false
    let other := ingestDump standard s second.wants ⟨"b", none⟩ dump false
    let pass := transact ⟨⟨"app", "1"⟩, []⟩ .standard ⟨"now", "then"⟩ ⟨other.2, none⟩
    first.wants "app" = true ∧ second.wants "app" = true ∧
      one.2.functions.rows.map (·.value.status) = [.integer 0, .integer 3] ∧
      other.2.functions.rows.map (·.value.status) = [.integer 0, .integer 0] ∧
      pass.1.toOption = some ⟨⟨"app", "1"⟩, 1, 1, 0, 0, 0⟩ ∧
      pass.2.store.functions.rows.map (fun r => (r.id, r.value.matchedSource)) =
        [(1, some 1), (2, none)] := by
  intro entry dump first second s one other pass
  have hfirst : first.wants "app" = true := by decide
  have hsecond : second.wants "app" = true := by decide
  obtain ⟨-, -, -, hpasses⟩ :=
    wanted_crate_is_unaffected standard first second hfirst hsecond ⟨s, none⟩ ⟨"b", none⟩ dump false
  obtain ⟨hanswer, -, hlinks⟩ := hpasses "1" [] .standard ⟨"now", "then"⟩ ⟨"now", "then"⟩
  have hstatuses : one.2.functions.rows.map (·.value.status) = [.integer 0, .integer 3] ∧
      other.2.functions.rows.map (·.value.status) = [.integer 0, .integer 0] := by
    decide +kernel
  have hpass : (transact ⟨⟨"app", "1"⟩, []⟩ .standard ⟨"now", "then"⟩ ⟨one.2, none⟩).1.toOption =
        some ⟨⟨"app", "1"⟩, 1, 1, 0, 0, 0⟩ ∧
      (transact ⟨⟨"app", "1"⟩, []⟩ .standard ⟨"now", "then"⟩ ⟨one.2, none⟩).2.store.functions.rows.map
        (fun r => (r.id, r.value.matchedSource)) = [(1, some 1), (2, none)] := by
    decide +kernel
  exact ⟨hfirst, hsecond, hstatuses.1, hstatuses.2, (congrArg Except.toOption hanswer).trans hpass.1,
    hlinks.trans hpass.2⟩

end Project

end CrateTrace
