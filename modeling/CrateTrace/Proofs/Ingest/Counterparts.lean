import CrateTrace.Mangling.Standard
import CrateTrace.Proofs.Ingest.Attachment
import CrateTrace.Proofs.Store.Readings

/-!
# Dumped functions and their counterparts

The counterpart of a dumped function is the only source function with its key. Main statement: after
the signatures of a dump are attached, a counterpart has the signature of the first dumped function
that it is the counterpart of, nothing else has changed, and the counts say how many there were.
-/

namespace CrateTrace.Ingest

open Mangling Name Program Store

/-- A dumped function of the crate with a signature to give, and its key. -/
structure IsReference (demangler : Demangler) (crate : String) (key : StructuralKey)
    (entry : FunctionDump) : Prop where
  rust : entry.isRust = true
  signature : Signature.Pattern.isValid entry.signature = true
  name : ∃ fullName d, demangle demangler entry.name = .ok fullName ∧ parse fullName = .ok d ∧
    d.crateName = some crate ∧ d.structuralKey (some crate) = key

theorem referenceKey?_eq_some_iff {demangler : Demangler} {crate : String} {key : StructuralKey}
    {entry : FunctionDump} :
    referenceKey? demangler crate entry = some key ↔ IsReference demangler crate key entry := by
  constructor
  · intro h
    unfold referenceKey? at h
    split at h
    · cases h
    · next husable =>
      split at h
      · cases h
      · next fullName hfullName =>
        split at h
        · cases h
        · next d hd =>
          split at h
          · next hcrate =>
            exact ⟨by simp_all, by simp_all, fullName, d, hfullName, hd, hcrate, Option.some.inj h⟩
          · cases h
  · rintro ⟨hrust, hvalid, fullName, d, hfullName, hd, hcrate, rfl⟩
    simp [referenceKey?, hrust, hvalid, hfullName, hd, hcrate]

/-- The `ok` source functions of a crate version that have this key. -/
def sourcesWithKey (s : Store) (unit : CrateVersion) (key : StructuralKey) :
    List (Row SourceColumns) :=
  (s.sources.rows.filter fun r =>
    r.value.crate == unit.name && r.value.version == unit.version && r.value.hasStatus .ok).filter
      fun r => structuralKeyOf r.value.fullName unit.name = .ok key

/-- The source function is the only one with its key, and some function of the dump has that key. -/
def IsCounterpart (demangler : Demangler) (s : Store) (unit : CrateVersion) (dump : Dump)
    (r : Row SourceColumns) : Prop :=
  ∃ key, sourcesWithKey s unit key = [r] ∧ ∃ e ∈ dump, IsReference demangler unit.name key e.2

/-- The dumped function has a key that belongs to no source function or to several. -/
def LacksCounterpart (demangler : Demangler) (s : Store) (unit : CrateVersion)
    (entry : FunctionDump) : Prop :=
  ∃ key, IsReference demangler unit.name key entry ∧ (sourcesWithKey s unit key).length ≠ 1

variable {demangler : Demangler} {s : Store} {unit : CrateVersion}
  {sources : List (Row SourceFunction)} {dump : Dump}

theorem mem_of_sole {key : StructuralKey} {r : Row SourceColumns}
    (h : sourcesWithKey s unit key = [r]) : r ∈ s.sources.rows := by
  have hmem : r ∈ sourcesWithKey s unit key := h ▸ List.mem_singleton_self r
  exact (List.mem_filter.1 (List.mem_filter.1 hmem).1).1

theorem key_of_sole {key : StructuralKey} {r : Row SourceColumns}
    (h : sourcesWithKey s unit key = [r]) :
    structuralKeyOf r.value.fullName unit.name = .ok key := by
  have hmem : r ∈ sourcesWithKey s unit key := h ▸ List.mem_singleton_self r
  exact of_decide_eq_true (List.mem_filter.1 hmem).2

/-! ## Dumped functions and source functions -/

theorem ids_withKey (h : s.sourceFunctions unit = .ok sources) (key : StructuralKey) :
    ((sourceKeys unit.name sources).filter (·.1 = key)).map Prod.snd =
      (sourcesWithKey s unit key).map Row.id := by
  unfold sourceKeys sourcesWithKey
  rw [List.filter_filterMap, List.map_filterMap, ← List.filterMap_eq_map, List.filterMap_filter]
  refine filterMap_eq_of_forall₂ (sourcesOf_ok h) ?_
  rintro r f ⟨hid, hname, -⟩
  rw [hname]
  cases hkey : structuralKeyOf r.value.fullName unit.name with
  | error e => simp
  | ok own =>
    by_cases hown : own = key <;> simp [hown, hid]

theorem standsFor?_eq_some_iff (h : s.sourceFunctions unit = .ok sources) {entry : FunctionDump}
    {id : RowId} :
    standsFor? demangler unit.name (sourceKeys unit.name sources) entry = some id ↔
      ∃ key r, IsReference demangler unit.name key entry ∧ sourcesWithKey s unit key = [r] ∧
        r.id = id := by
  unfold standsFor?
  rw [Option.bind_eq_some_iff]
  simp only [referenceKey?_eq_some_iff, soleId_iff, ids_withKey h, List.map_eq_singleton_iff]
  constructor
  · rintro ⟨key, hkey, r, hr, rfl⟩
    exact ⟨key, r, hkey, hr, rfl⟩
  · rintro ⟨key, r, hkey, hr, rfl⟩
    exact ⟨key, hkey, r, hr, rfl⟩

theorem lacksCounterpart_iff (h : s.sourceFunctions unit = .ok sources) (entry : FunctionDump) :
    LacksCounterpart demangler s unit entry ↔
      isUnresolved demangler unit.name (sourceKeys unit.name sources) entry := by
  have hsole : ∀ key, (sourcesWithKey s unit key).length ≠ 1 ↔
      soleId? (sourceKeys unit.name sources) key = none := by
    intro key
    rw [Option.eq_none_iff_forall_ne_some, ne_eq, ← List.length_map Row.id, List.length_eq_one_iff,
      not_exists]
    simp only [ne_eq, soleId_iff, ids_withKey h]
  unfold LacksCounterpart isUnresolved standsFor?
  simp only [← referenceKey?_eq_some_iff, hsole]
  cases referenceKey? demangler unit.name entry <;> simp

/-- A source function is given a signature just if it is a counterpart. -/
theorem isSome_signatureFor?_iff (h : s.sourceFunctions unit = .ok sources)
    {r : Row SourceColumns} (hr : r ∈ s.sources.rows) :
    (signatureFor? demangler unit.name (sourceKeys unit.name sources) (dump.map Prod.snd) r.id).isSome ↔
      IsCounterpart demangler s unit dump r := by
  unfold signatureFor? IsCounterpart
  rw [Option.isSome_map, List.find?_isSome]
  simp only [List.mem_map, exists_exists_and_eq_and, decide_eq_true_eq, standsFor?_eq_some_iff h]
  constructor
  · rintro ⟨e, he, key, r', hkey, hsole, hid⟩
    obtain rfl := s.sources.eq_of_id_eq (mem_of_sole hsole) hr hid
    exact ⟨key, hsole, e, he, hkey⟩
  · rintro ⟨key, hsole, e, he, hkey⟩
    exact ⟨e, he, key, r, hkey, hsole, rfl⟩

theorem row_of_signatureFor? (h : s.sourceFunctions unit = .ok sources) {id : RowId}
    {entries : List FunctionDump}
    (hsome : (signatureFor? demangler unit.name (sourceKeys unit.name sources) entries id).isSome) :
    ∃ r ∈ s.sources.rows, r.id = id := by
  unfold signatureFor? at hsome
  rw [Option.isSome_map, List.find?_isSome] at hsome
  obtain ⟨entry, -, hstands⟩ := hsome
  obtain ⟨key, r, -, hsole, hid⟩ := (standsFor?_eq_some_iff h).1 (of_decide_eq_true hstands)
  exact ⟨r, mem_of_sole hsole, hid⟩

/-- Of the functions with its key the first one gives its signature. -/
theorem signatureFor?_of_first (h : s.sourceFunctions unit = .ok sources) {key : StructuralKey}
    {r : Row SourceColumns} (hsole : sourcesWithKey s unit key = [r]) {before behind : Dump}
    {label : String} {entry : FunctionDump} (hentry : IsReference demangler unit.name key entry)
    (hfirst : ∀ e ∈ before, ¬ IsReference demangler unit.name key e.2) :
    signatureFor? demangler unit.name (sourceKeys unit.name sources)
      ((before ++ (label, entry) :: behind).map Prod.snd) r.id = some entry.signature := by
  -- Functions with other keys stand for other source functions.
  have hskipped : ∀ e ∈ before.map Prod.snd,
      ¬ standsFor? demangler unit.name (sourceKeys unit.name sources) e = some r.id := by
    intro e he hstands
    obtain ⟨p, hp, rfl⟩ := List.mem_map.1 he
    obtain ⟨key', r', hkey', hsole', hid⟩ := (standsFor?_eq_some_iff h).1 hstands
    obtain rfl := s.sources.eq_of_id_eq (mem_of_sole hsole') (mem_of_sole hsole) hid
    have hown := (key_of_sole hsole).symm.trans (key_of_sole hsole')
    obtain rfl : key = key' := Except.ok.inj hown
    exact hfirst p hp hkey'
  have hstands := (standsFor?_eq_some_iff h).2 ⟨key, r, hentry, hsole, rfl⟩
  unfold signatureFor?
  rw [List.map_append, List.map_cons, List.find?_append,
    List.find?_eq_none.2 (by simpa using hskipped), Option.none_or,
    List.find?_cons_of_pos (by simpa using hstands), Option.map_some]

/-! ## Counts -/

theorem unresolved_add (crate : String) (keys : List (StructuralKey × RowId)) (a : Attachment)
    (entry : FunctionDump) :
    (a.add demangler crate keys entry).unresolved =
      a.unresolved + if isUnresolved demangler crate keys entry then 1 else 0 := by
  rw [Attachment.add_eq]
  split
  case h_1 id hstands =>
    have hresolved : isUnresolved demangler crate keys entry = false := by simp [isUnresolved, hstands]
    rw [hresolved]
    split <;> rfl
  case h_2 => split <;> rfl

theorem unresolved_foldl_add (crate : String) (keys : List (StructuralKey × RowId))
    (a : Attachment) (entries : List FunctionDump) :
    (entries.foldl (Attachment.add demangler crate keys) a).unresolved =
      a.unresolved + entries.countP (isUnresolved demangler crate keys) := by
  induction entries generalizing a with
  | nil => rfl
  | cons entry entries ih =>
    rw [List.foldl_cons, ih, unresolved_add, List.countP_cons, Nat.add_assoc]
    congr 1
    exact Nat.add_comm _ _

/-- The source functions that are given a signature are the counterparts. -/
theorem mem_attached_iff (h : s.sourceFunctions unit = .ok sources) {id : RowId} :
    id ∈ ((dump.map Prod.snd).foldl (Attachment.add demangler unit.name (sourceKeys unit.name sources))
        ⟨[], 0⟩).signatures.map Prod.fst ↔
      ∃ r ∈ s.sources.rows, IsCounterpart demangler s unit dump r ∧ r.id = id := by
  rw [mem_ids_iff_isSome_lookup, lookup_attached]
  constructor
  · intro hsome
    obtain ⟨r, hr, rfl⟩ := row_of_signatureFor? h hsome
    exact ⟨r, hr, (isSome_signatureFor?_iff h hr).1 hsome, rfl⟩
  · rintro ⟨r, hr, hcounterpart, rfl⟩
    exact (isSome_signatureFor?_iff h hr).2 hcounterpart

open Classical in
/-- As many signatures are given as there are counterparts. -/
theorem length_signatures (h : s.sourceFunctions unit = .ok sources) :
    ((dump.map Prod.snd).foldl (Attachment.add demangler unit.name (sourceKeys unit.name sources))
      ⟨[], 0⟩).signatures.length = s.sources.rows.countP (IsCounterpart demangler s unit dump ·) := by
  have hrows : ((s.sources.rows.filter (IsCounterpart demangler s unit dump ·)).map Row.id).Nodup :=
    s.sources.ids_nodup.sublist (List.filter_sublist.map Row.id)
  have hids : (((dump.map Prod.snd).foldl (Attachment.add demangler unit.name
      (sourceKeys unit.name sources)) ⟨[], 0⟩).signatures.map Prod.fst).Nodup := nodup_attached _
  have hperm := (List.perm_ext_iff_of_nodup hids hrows).2
    fun id => (mem_attached_iff h).trans (by simp [and_assoc])
  rw [List.countP_eq_length_filter, ← List.length_map Row.id, ← hperm.length_eq, List.length_map]

/-! ## The store -/

open Classical in
/-- A counterpart gets the signature of the first dumped function with its key, whatever it had
before. If the source functions of the crate version cannot be read, nothing is done. -/
theorem counterparts_get_first_signatures (demangler : Demangler) (s : Store) (unit : CrateVersion)
    (dump : Dump) :
    (∀ e, s.sourceFunctions unit = .error e → attach demangler s unit dump = .error e) ∧
    ∀ sources, s.sourceFunctions unit = .ok sources →
      ∃ (summary : AttachSummary) (signature : Row SourceColumns → Option String),
        attach demangler s unit dump = .ok (summary, { s with
          sources := s.sources.modify fun r => { r.value with signature := signature r } }) ∧
        (∀ r key before label entry behind, sourcesWithKey s unit key = [r] →
          dump = before ++ (label, entry) :: behind → IsReference demangler unit.name key entry →
          (∀ e ∈ before, ¬ IsReference demangler unit.name key e.2) →
            signature r = some entry.signature) ∧
        (∀ r ∈ s.sources.rows, ¬ IsCounterpart demangler s unit dump r →
          signature r = r.value.signature) ∧
        summary.attached = s.sources.rows.countP (IsCounterpart demangler s unit dump ·) ∧
        summary.unresolved = dump.countP (LacksCounterpart demangler s unit ·.2) := by
  refine ⟨fun e he => ?_, fun sources hsources => ?_⟩
  · unfold attach
    rw [he]
  obtain ⟨summary, hattach⟩ := attach_signs hsources dump
  have hsummary := hattach
  unfold attach at hsummary
  rw [hsources] at hsummary
  obtain ⟨rfl, -⟩ := Prod.mk.inj (Except.ok.inj hsummary)
  refine ⟨_, _, hattach, ?_, ?_, ?_, ?_⟩
  · rintro r key before label entry behind hsole rfl hentry hfirst
    rw [signatureFor?_of_first hsources hsole hentry hfirst, Option.some_or]
  · intro r hr hnone
    rw [← isSome_signatureFor?_iff hsources hr, Option.not_isSome_iff_eq_none] at hnone
    rw [hnone, Option.none_or]
  · exact length_signatures hsources
  · rw [unresolved_foldl_add, Nat.zero_add, List.countP_map]
    refine List.countP_congr fun e _ => ?_
    simp [lacksCounterpart_iff hsources]

/-- Two copies of `app::run` in the dump; the source function has a signature already. -/
theorem counterparts_get_first_signatures_run :
    let signature (byte : String) := byte ++ String.ofList (List.replicate 62 '-')
    let f : SourceFunction :=
      ⟨⟨"app", "run", "app::run", .normal "app", .ok⟩, "1", some (signature "55"), false⟩
    let s := (Store.empty.addCrate ⟨"app", "1"⟩).addSource 1 f
    let copy (byte : String) : FunctionDump :=
      ⟨"_ZN3app3run17h0123456789abcdefE", true, [], [], signature byte⟩
    let dump := [("10", copy "48"), ("20", copy "c3")]
    let key : StructuralKey := ⟨["run"], none⟩
    sourcesWithKey s ⟨"app", "1"⟩ key = [⟨1, .ofFunction 1 f⟩] ∧
      IsReference standard "app" key (copy "48") ∧
      ∃ summary s', attach standard s ⟨"app", "1"⟩ dump = .ok (summary, s') ∧
        s'.sources.rows = [⟨1, .ofFunction 1 { f with signature := some (signature "48") }⟩] := by
  intro signature f s copy dump key
  have hsole : sourcesWithKey s ⟨"app", "1"⟩ key = [⟨1, .ofFunction 1 f⟩] := by decide +kernel
  have hcopy : IsReference standard "app" key (copy "48") := by
    refine ⟨rfl, by decide +kernel, "app::run", ⟨[⟨.name "app", none⟩, ⟨.name "run", none⟩], none⟩,
      ?_⟩
    decide +kernel
  have hread : (s.sourceFunctions ⟨"app", "1"⟩).isOk = true := by decide +kernel
  obtain ⟨sources, hsources⟩ := exists_of_isOk hread
  obtain ⟨summary, given, hattach, hfirst, -⟩ :=
    (counterparts_get_first_signatures standard s ⟨"app", "1"⟩ dump).2 sources hsources
  have hgiven := hfirst _ key [] "10" (copy "48") [("20", copy "c3")] hsole rfl hcopy (by simp)
  refine ⟨hsole, hcopy, summary, _, hattach, ?_⟩
  have hrows : s.sources.rows = [⟨1, .ofFunction 1 f⟩] := rfl
  rw [Table.rows_modify, hrows, List.map_singleton, hgiven]
  rfl

end CrateTrace.Ingest
