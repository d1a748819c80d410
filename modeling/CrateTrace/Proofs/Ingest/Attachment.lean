import CrateTrace.Ingest.Reference
import CrateTrace.Proofs.Store.Tables

/-!
# Which signatures are attached

A dumped function stands for the only source function with its key. Each source function gets the
signature of the first dumped function that stands for it.
-/

namespace CrateTrace.Ingest

open Mangling Name Program Store

variable {demangler : Demangler} {crate : String} {keys : List (StructuralKey × RowId)}
  {entry : FunctionDump} {id : RowId}

/-! ## One dumped function -/

/-- The only source function with a key. -/
def soleId? (keys : List (StructuralKey × RowId)) (key : StructuralKey) : Option RowId :=
  match keys.filter (·.1 = key) with
  | [(_, id)] => some id
  | _ => none

theorem soleId_iff {key : StructuralKey} :
    soleId? keys key = some id ↔ (keys.filter (·.1 = key)).map Prod.snd = [id] := by
  unfold soleId?
  split
  case h_1 heq => simp [heq]
  case h_2 hmany =>
    constructor
    · rintro ⟨⟩
    · intro hone
      obtain ⟨⟨key', id'⟩, hsole, rfl⟩ := List.map_eq_singleton_iff.1 hone
      exact absurd hsole (hmany key' id')

/-- The source function that a dumped function of the crate stands for. -/
def standsFor? (demangler : Demangler) (crate : String) (keys : List (StructuralKey × RowId))
    (entry : FunctionDump) : Option RowId :=
  (referenceKey? demangler crate entry).bind (soleId? keys)

def isUnresolved (demangler : Demangler) (crate : String) (keys : List (StructuralKey × RowId))
    (entry : FunctionDump) : Bool :=
  (referenceKey? demangler crate entry).isSome && (standsFor? demangler crate keys entry).isNone

theorem Attachment.add_eq (a : Attachment) (entry : FunctionDump) :
    a.add demangler crate keys entry =
      match standsFor? demangler crate keys entry with
      | some id =>
        if a.signatures.any (·.1 == id) then a
        else { a with signatures := a.signatures ++ [(id, entry.signature)] }
      | none =>
        if isUnresolved demangler crate keys entry then { a with unresolved := a.unresolved + 1 }
        else a := by
  unfold Attachment.add isUnresolved standsFor?
  cases referenceKey? demangler crate entry with
  | none => rfl
  | some key =>
    simp only [Option.bind_some, Option.isSome_some, Bool.true_and, soleId?]
    generalize List.filter _ keys = found
    rcases found with _ | ⟨⟨_, id⟩, _ | ⟨second, more⟩⟩ <;> rfl

theorem isValid_of_referenceKey {key : StructuralKey}
    (h : referenceKey? demangler crate entry = some key) :
    Signature.Pattern.isValid entry.signature = true := by
  unfold referenceKey? at h
  split at h
  · cases h
  · simp_all

theorem isValid_of_standsFor (h : standsFor? demangler crate keys entry = some id) :
    Signature.Pattern.isValid entry.signature = true := by
  obtain ⟨key, hkey, -⟩ := Option.bind_eq_some_iff.1 h
  exact isValid_of_referenceKey hkey

/-! ## All dumped functions -/

/-- The signature that the dumped functions have for a source function. -/
def signatureFor? (demangler : Demangler) (crate : String) (keys : List (StructuralKey × RowId))
    (entries : List FunctionDump) (id : RowId) : Option String :=
  (entries.find? fun entry => standsFor? demangler crate keys entry = some id).map (·.signature)

theorem any_eq_isSome_lookup (signatures : List (RowId × String)) (id : RowId) :
    signatures.any (·.1 == id) = (signatures.lookup id).isSome := by
  have hcomm : ∀ p : RowId × String, (p.1 == id) = (id == p.1) := fun _ => BEq.comm
  rw [Bool.eq_iff_iff, List.lookup_isSome_iff, List.any_eq_true]
  simp only [hcomm]

theorem mem_ids_iff_isSome_lookup (signatures : List (RowId × String)) (id : RowId) :
    id ∈ signatures.map Prod.fst ↔ (signatures.lookup id).isSome := by
  rw [← any_eq_isSome_lookup, List.any_eq_true]
  simp

/-- What was attached before stays. -/
theorem lookup_add (a : Attachment) (entry : FunctionDump) (id : RowId) :
    (a.add demangler crate keys entry).signatures.lookup id =
      (a.signatures.lookup id).or (signatureFor? demangler crate keys [entry] id) := by
  rw [Attachment.add_eq, signatureFor?, List.find?_singleton]
  cases hstands : standsFor? demangler crate keys entry with
  | none =>
    dsimp only
    split <;> simp
  | some own =>
    simp only [any_eq_isSome_lookup]
    split_ifs with hthere hown hown
    · obtain rfl : own = id := by simpa using hown
      obtain ⟨signature, hlookup⟩ := Option.isSome_iff_exists.1 hthere
      rw [hlookup]
      rfl
    · simp
    · obtain rfl : own = id := by simpa using hown
      simp [List.lookup_append]
    · have hother : (id == own) = false :=
        beq_eq_false_iff_ne.2 fun heq => hown (by simp [heq])
      simp [List.lookup_append, List.lookup_cons, hother]

theorem nodup_add {a : Attachment} (h : (a.signatures.map Prod.fst).Nodup) (entry : FunctionDump) :
    ((a.add demangler crate keys entry).signatures.map Prod.fst).Nodup := by
  rw [Attachment.add_eq]
  split
  case h_1 own _ =>
    split_ifs with hthere
    · exact h
    · have hnew : own ∉ a.signatures.map Prod.fst := by
        intro hin
        obtain ⟨p, hp, hpid⟩ := List.mem_map.1 hin
        exact hthere (List.any_eq_true.2 ⟨p, hp, beq_iff_eq.2 hpid⟩)
      rw [List.map_append]
      refine List.nodup_append.2 ⟨h, List.nodup_singleton own, ?_⟩
      rintro id hin _ hown rfl
      obtain rfl : id = own := List.mem_singleton.1 hown
      exact hnew hin
  case h_2 => split <;> exact h

theorem lookup_foldl_add (a : Attachment) (entries : List FunctionDump) (id : RowId) :
    (entries.foldl (Attachment.add demangler crate keys) a).signatures.lookup id =
      (a.signatures.lookup id).or (signatureFor? demangler crate keys entries id) := by
  induction entries generalizing a with
  | nil => simp [signatureFor?]
  | cons entry entries ih =>
    have hcons : signatureFor? demangler crate keys (entry :: entries) id =
        (signatureFor? demangler crate keys [entry] id).or
          (signatureFor? demangler crate keys entries id) := by
      unfold signatureFor?
      rw [List.find?_singleton, List.find?_cons]
      split <;> simp_all
    rw [List.foldl_cons, ih, lookup_add, hcons, Option.or_assoc]

theorem nodup_foldl_add {a : Attachment} (h : (a.signatures.map Prod.fst).Nodup)
    (entries : List FunctionDump) :
    ((entries.foldl (Attachment.add demangler crate keys) a).signatures.map Prod.fst).Nodup := by
  induction entries generalizing a with
  | nil => exact h
  | cons entry entries ih => exact ih (nodup_add h entry)

theorem lookup_attached (entries : List FunctionDump) (id : RowId) :
    (entries.foldl (Attachment.add demangler crate keys) ⟨[], 0⟩).signatures.lookup id =
      signatureFor? demangler crate keys entries id := by
  rw [lookup_foldl_add, List.lookup_nil, Option.none_or]

theorem nodup_attached (entries : List FunctionDump) :
    ((entries.foldl (Attachment.add demangler crate keys) ⟨[], 0⟩).signatures.map Prod.fst).Nodup := by
  have hnone : ((Attachment.signatures ⟨[], 0⟩).map Prod.fst).Nodup := List.nodup_nil
  exact nodup_foldl_add hnone entries

/-! ## The store -/

/-- A source function as it was, or with another signature. -/
def Signed (f f' : SourceColumns) : Prop :=
  f' = f ∨ ∃ signature, Signature.Pattern.isValid signature = true ∧
    f' = { f with signature := some signature }

def sign (f : SourceColumns) (signature : Option String) : SourceColumns :=
  { f with signature := signature.or f.signature }

theorem signed_sign (f : SourceColumns) (entries : List FunctionDump) (id : RowId) :
    Signed f (sign f (signatureFor? demangler crate keys entries id)) := by
  cases hsignature : signatureFor? demangler crate keys entries id with
  | none => exact .inl rfl
  | some signature =>
    obtain ⟨entry, hentry, rfl⟩ := Option.map_eq_some_iff.1 hsignature
    have hstands : standsFor? demangler crate keys entry = some id := by
      simpa using List.find?_some hentry
    exact .inr ⟨entry.signature, isValid_of_standsFor hstands, rfl⟩

theorem foldl_setSignature (s : Store) (signatures : List (RowId × String))
    (h : (signatures.map Prod.fst).Nodup) :
    signatures.foldl (fun s (id, signature) => s.setSignature id signature) s =
      { s with sources := s.sources.modify fun r => sign r.value (signatures.lookup r.id) } := by
  induction signatures generalizing s with
  | nil => simp [sign, Table.modify_id]
  | cons first signatures ih =>
    obtain ⟨id, signature⟩ := first
    rw [List.map_cons, List.nodup_cons] at h
    have hgone : signatures.lookup id = none := by
      rw [List.lookup_eq_none_iff]
      intro p hp
      have hne : p.1 ≠ id := fun heq => h.1 (List.mem_map.2 ⟨p, hp, heq⟩)
      simpa using hne.symm
    rw [List.foldl_cons, ih _ h.2]
    simp only [setSignature, Table.update, Table.modify_modify]
    congr 1
    refine Table.modify_congr fun r _ => ?_
    by_cases hid : r.id = id
    · rw [if_pos hid, hid, hgone]
      simp [sign]
    · rw [if_neg hid]
      simp [List.lookup_cons, beq_eq_false_iff_ne.2 hid]

theorem attach_signs {s : Store} {unit : CrateVersion} {sources : List (Row SourceFunction)}
    (h : s.sourceFunctions unit = .ok sources) (dump : Dump) :
    let signature? :=
      signatureFor? demangler unit.name (sourceKeys unit.name sources) (dump.map Prod.snd)
    ∃ summary, attach demangler s unit dump =
      .ok (summary, { s with sources := s.sources.modify fun r => sign r.value (signature? r.id) }) := by
  unfold attach
  rw [h]
  dsimp only
  rw [foldl_setSignature _ _ (nodup_attached (dump.map Prod.snd))]
  simp only [lookup_attached]
  exact ⟨_, rfl⟩

theorem attach_ok {s s' : Store} {unit : CrateVersion} {dump : Dump} {summary : AttachSummary}
    (h : attach demangler s unit dump = .ok (summary, s')) :
    ∃ change : Row SourceColumns → SourceColumns, (∀ r, Signed r.value (change r)) ∧
      s' = { s with sources := s.sources.modify change } := by
  cases hread : s.sourceFunctions unit with
  | error e =>
    unfold attach at h
    rw [hread] at h
    cases h
  | ok sources =>
    obtain ⟨summary', hattach⟩ := attach_signs hread dump
    rw [hattach] at h
    cases h
    exact ⟨_, fun r => signed_sign r.value _ r.id, rfl⟩

end CrateTrace.Ingest
