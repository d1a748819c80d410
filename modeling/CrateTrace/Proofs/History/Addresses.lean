import CrateTrace.Mangling.Standard
import CrateTrace.Proofs.History.Links
import CrateTrace.Proofs.History.Replacement
import CrateTrace.Proofs.Ingest.Extraction

/-!
# Addresses of functions

The functions of a binary have the addresses that the keys of one dump stand for: the last one that
was taken in. A number can be written in several ways, so that different keys may stand for the same
address.
-/

namespace CrateTrace

open Mangling Name Program Store

variable {demangler : Demangler}

/-! ## Addresses in a dump -/

namespace Ingest

/-- A Rust function of whose name at least the crate can be told. -/
def isKept (demangler : Demangler) (entry : FunctionDump) : Bool :=
  entry.isRust &&
    match demangle demangler entry.name with
    | .ok fullName => (parse fullName).isOk || (leadingCrate? fullName).isSome
    | .error _ => false

def keptAddress? (demangler : Demangler) (key : String) (entry : FunctionDump) : Option UInt64 :=
  if isKept demangler entry then addressOfKey? key else none

/-- The addresses of the functions that are kept, in the order of their keys. -/
def keptAddresses (demangler : Demangler) (dump : Dump) : List UInt64 :=
  dump.filterMap fun (key, entry) => keptAddress? demangler key entry

/-- Which crates are wanted has no say in what is kept. -/
theorem address_functionOf (wants : String → Bool) (binary key : String) (entry : FunctionDump) :
    (functionOf? demangler wants binary key entry).map (·.address) =
      keptAddress? demangler key entry := by
  unfold functionOf? keptAddress? isKept
  cases entry.isRust with
  | false => rfl
  | true =>
    cases addressOfKey? key with
    | none => simp
    | some address =>
      cases demangle demangler entry.name with
      | error e => rfl
      | ok fullName =>
        cases hparse : parse fullName with
        | ok d => simp [parsedFunction, hparse, Except.isOk, Except.toBool]
        | error e =>
          cases hcrate : leadingCrate? fullName <;>
            simp [unparsedFunction?, hparse, hcrate, Except.isOk, Except.toBool]

theorem addresses_functionsOfDump (wants : String → Bool) (binary : String) (dump : Dump) :
    (functionsOfDump demangler wants binary dump).map (·.address) =
      keptAddresses demangler dump := by
  unfold functionsOfDump keptAddresses
  rw [List.map_filterMap]
  exact List.filterMap_congr fun e _ => address_functionOf wants binary e.1 e.2

theorem nodup_keptAddresses {dump : Dump} (hkeys : (dump.map Prod.fst).Nodup)
    (hmade : ∀ e ∈ dump, ∃ entry, e.1 = entryKey entry) : (keptAddresses demangler dump).Nodup := by
  have hread : ∀ e ∈ dump, ∀ address, keptAddress? demangler e.1 e.2 = some address →
      e.1 = entryKey address := by
    intro e he address haddress
    obtain ⟨entry, hkey⟩ := hmade e he
    unfold keptAddress? at haddress
    split at haddress
    · rw [hkey, addressOfKey?_entryKey] at haddress
      rw [hkey, Option.some.inj haddress]
    · cases haddress
  unfold keptAddresses List.Nodup
  rw [List.pairwise_filterMap]
  refine (List.pairwise_map.1 hkeys).imp_of_mem fun {e e'} he he' hne a ha a' ha' heq => hne ?_
  rw [hread e he a ha, hread e' he' a' ha', heq]

end Ingest

namespace Store

theorem Owned.binaryId_eq_iff_binary {s : Store} (h : s.Owned) {f g : Row BinaryColumns}
    (hf : f ∈ s.functions.rows) (hg : g ∈ s.functions.rows) :
    f.value.binaryId = g.value.binaryId ↔ f.value.binary = g.value.binary := by
  obtain ⟨b, hb, hid, hname⟩ := h.functions f hf
  obtain ⟨b', hb', hid', hname'⟩ := h.functions g hg
  rw [← hid, ← hid', ← hname, ← hname']
  constructor
  · exact fun heq => congrArg (·.value.name) (s.binaries.eq_of_id_eq hb hb' heq)
  · exact fun heq => congrArg Row.id (List.inj_on_of_nodup_map h.names hb hb' heq)

namespace FunctionsReplaced

variable {s s' : Store} {binary : Binary} {records : List BinaryFunction} {name : String}

theorem functions_other (h : FunctionsReplaced s s' binary records) (hname : binary.name ≠ name) :
    s'.functionsOfBinary name = s.functionsOfBinary name := by
  have hown : ∀ t : Store, t.functionsOfBinary name =
      (t.functions.rows.filter (·.value.binary ≠ binary.name)).filter (·.value.binary = name) := by
    intro t
    unfold functionsOfBinary
    rw [List.filter_filter]
    refine List.filter_congr fun r _ => ?_
    by_cases hr : r.value.binary = name
    · simp [hr, hname.symm]
    · simp [hr]
  rw [hown, h.others, ← hown]

theorem unknown_other (h : FunctionsReplaced s s' binary records) (hname : binary.name ≠ name) :
    (∀ row ∈ s'.binaries.rows, row.value.name ≠ name) ↔
      ∀ row ∈ s.binaries.rows, row.value.name ≠ name := by
  have hrows : ∀ t : Store, (∀ row ∈ t.binaries.rows, row.value.name ≠ name) ↔
      ∀ row ∈ t.binaries.rows.filter (·.value.name ≠ binary.name), row.value.name ≠ name := by
    intro t
    simp only [List.mem_filter, decide_eq_true_eq]
    constructor
    · exact fun hall row hrow => hall row hrow.1
    · rintro hall row hrow rfl
      exact hall row ⟨hrow, hname.symm⟩ rfl
  rw [hrows, h.binaries, ← hrows]

end FunctionsReplaced

end Store

/-! ## The last dump -/

namespace History

open Ingest Matching

/-- The dump that the functions of a binary come from, after one more call. A dump of a binary that is
there counts by force only. -/
def takenUp (binary : String) (last : Option Dump) : Call → Option Dump
  | .ingestDump _ b dump force =>
    if b.name = binary ∧ (force = true ∨ last = none) then some dump else last
  | _ => last

def lastDump? (binary : String) (calls : List Call) : Option Dump :=
  calls.foldl (takenUp binary) none

/-- The functions of a binary are those of a dump. There is none just if the binary is unknown. -/
structure ComesFrom (demangler : Demangler) (s : Store) (binary : String) (last : Option Dump) :
    Prop where
  unknown : last = none ↔ ∀ row ∈ s.binaries.rows, row.value.name ≠ binary
  addresses : (s.functionsOfBinary binary).map (·.value.address) =
    keptAddresses demangler (last.getD [])

theorem comesFrom_empty (binary : String) : ComesFrom demangler .empty binary none :=
  ⟨by simp [Store.empty], rfl⟩

/-- Calls that take in no dump of a binary. -/
theorem Effect.relinks {s s' : Store} {call : Call} (effect : Effect demangler s call s')
    (hcall : ∀ wants binary dump force, call ≠ .ingestDump wants binary dump force) :
    s'.binaries = s.binaries ∧ ∃ target : Row BinaryColumns → Option RowId,
      s'.functions = s.functions.modify fun r => r.value.relink (target r) := by
  have hsame : s.functions = s.functions.modify fun r => r.value.relink r.value.matchedSource := by
    simp [Table.modify_id]
  cases effect with
  | nothing | unitAdded | signed | noted => exact ⟨rfl, _, hsame⟩
  | unitReplaced | linked => exact ⟨rfl, _, rfl⟩
  | binaryAdded | binaryReplaced => exact absurd rfl (hcall _ _ _ _)

theorem Effect.comesFrom {s s' : Store} {call : Call} (effect : Effect demangler s call s')
    (hcall : ∀ wants binary dump force, call ≠ .ingestDump wants binary dump force)
    {name : String} {last : Option Dump} (h : ComesFrom demangler s name last) :
    ComesFrom demangler s' name last := by
  obtain ⟨hbinaries, target, hfunctions⟩ := effect.relinks hcall
  refine ⟨by rw [hbinaries]; exact h.unknown, ?_⟩
  rw [← h.addresses]
  unfold functionsOfBinary
  rw [hfunctions, Table.rows_modify, List.filter_map, List.map_map]
  rfl

theorem ComesFrom.replaced {s s' : Store} {name : String} {last : Option Dump}
    (h : ComesFrom demangler s name last) {binary : Binary} {wants : String → Bool} {dump : Dump}
    (hreplaced : FunctionsReplaced s s' binary (functionsOfDump demangler wants binary.name dump)) :
    ComesFrom demangler s' name (if binary.name = name then some dump else last) := by
  split
  case isTrue hname =>
    subst hname
    obtain ⟨row, hrow, hvalue, hrecords⟩ := hreplaced.replaced
    refine ⟨iff_of_false (by simp) fun hnone => hnone row hrow (by rw [hvalue]), ?_⟩
    have haddresses := congrArg (List.map (·.address)) hrecords
    rw [List.map_map, List.map_map] at haddresses
    exact haddresses.trans (addresses_functionsOfDump wants binary.name dump)
  case isFalse hname =>
    refine ⟨h.unknown.trans (hreplaced.unknown_other hname).symm, ?_⟩
    rw [hreplaced.functions_other hname]
    exact h.addresses

theorem comesFrom_ingestDump {s : Store} (howned : s.Owned) {name : String} {last : Option Dump}
    (h : ComesFrom demangler s name last) (wants : String → Bool) (binary : Binary) (dump : Dump)
    (force : Bool) :
    ComesFrom demangler (ingestDump demangler s wants binary dump force).2 name
      (if binary.name = name ∧ (force = true ∨ last = none) then some dump else last) := by
  rcases ingestDump_replaces howned wants binary dump force with ⟨hend, rfl, row, hrow, hname⟩ |
    ⟨s', hend, hnew, hreplaced⟩
  · rw [hend, if_neg]
    · exact h
    · rintro ⟨rfl, hforce | hnone⟩
      · cases hforce
      · exact h.unknown.1 hnone row hrow hname
  · rw [hend]
    have htaken := h.replaced hreplaced
    by_cases hname : binary.name = name
    · subst hname
      rw [if_pos rfl] at htaken
      rwa [if_pos ⟨rfl, hnew.imp_right h.unknown.2⟩]
    · rw [if_neg hname] at htaken
      rwa [if_neg fun hboth => hname hboth.1]

theorem comesFrom_run {s : Store} (howned : s.Owned) {name : String} {last : Option Dump}
    (h : ComesFrom demangler s name last) (call : Call) :
    ComesFrom demangler (call.run demangler s) name (takenUp name last call) := by
  cases call with
  | ingestDump wants binary dump force => exact comesFrom_ingestDump howned h wants binary dump force
  | ingestSources | attach | pass => exact (effect_run s _).comesFrom (by simp) h

theorem comesFrom_after (binary : String) (calls : List Call) :
    ComesFrom demangler (after demangler calls) binary (lastDump? binary calls) := by
  induction calls using List.reverseRecOn with
  | nil => exact comesFrom_empty binary
  | append_singleton calls call ih =>
    have hlast : lastDump? binary (calls ++ [call]) =
        takenUp binary (lastDump? binary calls) call := List.foldl_append
    rw [after_append, hlast]
    exact comesFrom_run (owned_after calls) ih call

/-! ## Functions with one address -/

theorem addresses_nodup_iff {s : Store} (h : s.Owned) :
    (∀ r ∈ s.functions.rows, ∀ r' ∈ s.functions.rows, r.value.binaryId = r'.value.binaryId →
      r.value.address = r'.value.address → r = r') ↔
      ∀ binary, ((s.functionsOfBinary binary).map (·.value.address)).Nodup := by
  have hrows : ∀ binary, (s.functionsOfBinary binary).Nodup :=
    fun _ => s.functions.ids_nodup.of_map.filter _
  simp only [List.nodup_map_iff_inj_on (hrows _)]
  unfold functionsOfBinary
  simp only [List.mem_filter, decide_eq_true_eq]
  constructor
  · rintro hall binary r ⟨hr, hbinary⟩ r' ⟨hr', hbinary'⟩
    exact hall r hr r' hr' ((h.binaryId_eq_iff_binary hr hr').2 (hbinary.trans hbinary'.symm))
  · intro hall r hr r' hr' hid
    have hbinary := (h.binaryId_eq_iff_binary hr hr').1 hid
    exact hall r.value.binary r ⟨hr, rfl⟩ r' ⟨hr', hbinary.symm⟩

/-- After every history the functions of a binary have different addresses just if the keys under which
they were dumped stand for different addresses, as keys that are made of entries do. -/
theorem addresses_differ_iff (demangler : Demangler) (calls : List Call) :
    let s := after demangler calls
    ((∀ r ∈ s.functions.rows, ∀ r' ∈ s.functions.rows, r.value.binaryId = r'.value.binaryId →
        r.value.address = r'.value.address → r = r') ↔
      ∀ binary dump, lastDump? binary calls = some dump → (keptAddresses demangler dump).Nodup) ∧
    ∀ dump : Dump, (dump.map Prod.fst).Nodup → (∀ e ∈ dump, ∃ entry, e.1 = entryKey entry) →
      (keptAddresses demangler dump).Nodup := by
  intro s
  refine ⟨?_, fun dump => nodup_keptAddresses⟩
  rw [addresses_nodup_iff (owned_after calls)]
  refine forall_congr' fun binary => ?_
  rw [(comesFrom_after binary calls).addresses]
  cases lastDump? binary calls with
  | none => simp [keptAddresses]
  | some dump => simp

/-- Two ways to write one address. -/
theorem addresses_repeat :
    let entry : FunctionDump :=
      { name := "_ZN3app3run17h0123456789abcdefE", isRust := true, edges := [],
        blocks := [(0, ["ret"])], signature := "55" ++ String.ofList (List.replicate 62 '-') }
    let dump : Dump := [("00001000", entry), ("0x1000", entry)]
    let s := after standard [.ingestDump (fun _ => true) ⟨"server", none⟩ dump false]
    ∃ r ∈ s.functions.rows, ∃ r' ∈ s.functions.rows, r.id ≠ r'.id ∧
      r.value.binaryId = r'.value.binaryId ∧ r.value.address = r'.value.address := by
  decide +kernel

end History

end CrateTrace
