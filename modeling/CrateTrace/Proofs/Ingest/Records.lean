import CrateTrace.Ingest.Binary
import CrateTrace.Proofs.Keyed

/-!
# What records say

The name and the kind in a record are those of the declaration that its full name reads as, but for
functions of binaries that are not `ok`.
-/

namespace CrateTrace.Ingest

open Mangling Name Program Store

def Declares (f : Function) (d : Declaration) : Prop :=
  parse f.fullName = .ok d ∧ f.name = d.symbolName ∧ f.kind = classify d

/-! ## Source functions -/

/-- The record of an entry, part by part. -/
structure RecordOf (unit : CrateVersion) (entry : Entry) (f : SourceFunction) : Prop where
  path : ∃ label, entry.head? = some (.str label) ∧ functionPath? label = some f.fullName
  declared : ∃ d, Declares f.toFunction d
  unit : CrateVersion.mk f.crate f.version = unit
  status : f.status = .ok
  signature : ∀ text, f.signature = some text ↔
    entry[2]? = some (.str text) ∧ Signature.Pattern.isValid text = true
  unmarked : f.matched = false

theorem string?_eq_some {j : Json} {text : String} : j.string? = some text ↔ j = .str text := by
  cases j <;> simp [Json.string?]

theorem entryLabel?_eq_some {entry : Entry} {label : String} :
    entryLabel? entry = some label ↔ entry.head? = some (.str label) := by
  simp [entryLabel?, Option.bind_eq_some_iff, string?_eq_some]

theorem entrySignature?_eq_some {entry : Entry} {text : String} :
    entrySignature? entry = some text ↔
      entry[2]? = some (.str text) ∧ Signature.Pattern.isValid text = true := by
  simp [entrySignature?, Option.filter_eq_some_iff, Option.bind_eq_some_iff, string?_eq_some]

theorem recordOf_of_sourceOf {unit : CrateVersion} {entry : Entry} {f : SourceFunction}
    (h : sourceOf? unit entry = some f) : RecordOf unit entry f := by
  unfold sourceOf? at h
  split at h
  · cases h
  · rename_i path hpath
    obtain ⟨label, hlabel, hpath⟩ := Option.bind_eq_some_iff.1 hpath
    split at h
    · cases h
    · rename_i d hparse
      cases h
      exact {
        path := ⟨label, entryLabel?_eq_some.1 hlabel, hpath⟩
        declared := ⟨d, hparse, rfl, rfl⟩
        unit := rfl
        status := rfl
        signature := fun _ => entrySignature?_eq_some
        unmarked := rfl }

theorem sourceOf_of_recordOf {unit : CrateVersion} {entry : Entry} {f : SourceFunction}
    (h : RecordOf unit entry f) : sourceOf? unit entry = some f := by
  obtain ⟨⟨label, hlabel, hpath⟩, ⟨d, hparse, hname, hkind⟩, rfl, hstatus, hsignature, hmatched⟩ := h
  have hlabelled : (entryLabel? entry).bind functionPath? = some f.fullName := by
    rw [entryLabel?_eq_some.2 hlabel]
    exact hpath
  have hkept : entrySignature? entry = f.signature :=
    Option.ext fun text => entrySignature?_eq_some.trans (hsignature text).symm
  unfold sourceOf?
  simp only [hlabelled, hparse, hkept, ← hname, ← hkind, ← hstatus, ← hmatched]

theorem sourceOf_iff {unit : CrateVersion} {entry : Entry} {f : SourceFunction} :
    sourceOf? unit entry = some f ↔ RecordOf unit entry f :=
  ⟨recordOf_of_sourceOf, sourceOf_of_recordOf⟩

theorem recordOf_of_mem {unit : CrateVersion} {entries : List Entry} {f : SourceFunction}
    (h : f ∈ sourcesOfEntries unit entries) : ∃ entry, RecordOf unit entry f := by
  obtain ⟨entry, -, hentry⟩ := List.mem_filterMap.1 h
  exact ⟨entry, recordOf_of_sourceOf hentry⟩

/-! ## Functions of binaries -/

variable {demangler : Demangler} {wants : String → Bool} {binary key : String} {entry : FunctionDump}
  {f : BinaryFunction}

theorem functionOf_cases (h : functionOf? demangler wants binary key entry = some f) :
    entry.isRust = true ∧ ∃ address fullName, addressOfKey? key = some address ∧
      demangle demangler entry.name = .ok fullName ∧
      ((∃ d, parse fullName = .ok d ∧ f = parsedFunction wants binary address fullName d entry) ∨
        (parse fullName).isOk = false ∧
          unparsedFunction? wants binary address fullName entry = some f) := by
  unfold functionOf? at h
  split at h
  · cases h
  case isFalse hrust =>
    refine ⟨by simpa using hrust, ?_⟩
    split at h
    case h_1 address fullName haddress hname =>
      refine ⟨address, fullName, haddress, hname, ?_⟩
      split at h
      case h_1 d hparse =>
        cases h
        exact .inl ⟨d, hparse, rfl⟩
      case h_2 e hparse => exact .inr ⟨by rw [hparse]; rfl, h⟩
    · cases h

theorem of_functionOf (h : functionOf? demangler wants binary key entry = some f) :
    f.binary = binary ∧ f.matchedSource = none := by
  obtain ⟨-, address, fullName, -, -, ⟨d, -, rfl⟩ | ⟨-, hrough⟩⟩ := functionOf_cases h
  · exact ⟨rfl, rfl⟩
  · obtain ⟨crate, -, rfl⟩ := Option.map_eq_some_iff.1 hrough
    exact ⟨rfl, rfl⟩

theorem of_mem_functionsOfDump {dump : Dump} (h : f ∈ functionsOfDump demangler wants binary dump) :
    f.binary = binary ∧ f.matchedSource = none := by
  obtain ⟨⟨key, entry⟩, -, hentry⟩ := List.mem_filterMap.1 h
  exact of_functionOf hentry

/-- What is known of a function of a binary that is `ok`. -/
structure Sound (f : BinaryFunction) : Prop where
  declared : ∃ d, Declares f.toFunction d ∧ d.crateName = some f.crate
  signature : Signature.Pattern.isValid f.signature = true

theorem statusOf_ok {d : Declaration} (h : statusOf wants d entry = .ok) :
    (∃ crate, d.crateName = some crate) ∧ Signature.Pattern.isValid entry.signature = true := by
  unfold statusOf at h
  split at h
  · cases h
  · rename_i crate hcrate
    refine ⟨⟨crate, hcrate⟩, ?_⟩
    split at h
    · cases h
    · simp_all

theorem sound_functionOf (h : functionOf? demangler wants binary key entry = some f)
    (hok : f.status = .ok) : Sound f := by
  obtain ⟨-, address, fullName, -, -, ⟨d, hparse, rfl⟩ | ⟨-, hrough⟩⟩ := functionOf_cases h
  · obtain ⟨⟨crate, hcrate⟩, hvalid⟩ := statusOf_ok hok
    have hnamed : d.crateName = some (d.crateName.getD "") := by rw [hcrate, Option.getD_some]
    exact ⟨⟨d, ⟨hparse, rfl, rfl⟩, hnamed⟩, hvalid⟩
  · obtain ⟨crate, -, rfl⟩ := Option.map_eq_some_iff.1 hrough
    -- A function with a name that cannot be parsed is never `ok`.
    have hstatus : (if wants crate then Status.unknownFormat else .unwantedCrate) = .ok := hok
    split at hstatus <;> cases hstatus

/-! ## The order of dumps -/

/-- A dump that is read lists its functions in the order of their keys. -/
theorem ordered_of_ofJson {j : Json} {dump : Dump} (h : Dump.ofJson? j = some dump) :
    dump.Pairwise fun a b => a.1 < b.1 := by
  obtain ⟨pairs, -, rfl⟩ := Option.map_eq_some_iff.1 h
  exact (Keyed.ordered_ofPairs Keyed.isOrder_textBefore pairs).imp of_decide_eq_true

end CrateTrace.Ingest
