import CrateTrace.Proofs.Store.Consistency

/-!
# Marks when a function is linked anew

A source function is marked once it is linked to. Main statement: a link that is set leads where it
should and leaves the others alone, and the mark of the source function that it led to before stays,
also if no link leads there any more.
-/

namespace CrateTrace.Store

/-- Just the source functions that are linked to are marked. -/
def MarksAgree (s : Store) : Prop := ∀ r ∈ s.sources.rows, r.value.matched = s.isLinked r.id

/-- The source function that a function is linked to. -/
def linkedTo? (s : Store) (functionId : RowId) : Option RowId :=
  (s.functions.get? functionId).bind (·.value.matchedSource)

/-- Whether a function other than this one is linked to a source function. -/
def IsLinkedByOther (s : Store) (functionId sourceId : RowId) : Prop :=
  ∃ f ∈ s.functions.rows, f.id ≠ functionId ∧ f.value.matchedSource = some sourceId

instance (s : Store) : Decidable s.MarksAgree :=
  inferInstanceAs (Decidable (∀ r ∈ s.sources.rows, r.value.matched = s.isLinked r.id))

instance (s : Store) (functionId sourceId : RowId) :
    Decidable (s.IsLinkedByOther functionId sourceId) :=
  inferInstanceAs (Decidable (∃ f ∈ s.functions.rows,
    f.id ≠ functionId ∧ f.value.matchedSource = some sourceId))

variable {s : Store} {functionId sourceId id : RowId}

theorem linkedTo?_eq_some_iff :
    s.linkedTo? functionId = some id ↔
      ∃ f ∈ s.functions.rows, f.id = functionId ∧ f.value.matchedSource = some id := by
  unfold linkedTo?
  rw [Option.bind_eq_some_iff]
  constructor
  · rintro ⟨f, hf, hlink⟩
    obtain ⟨hin, hid⟩ := Table.get?_eq_some_iff.1 hf
    exact ⟨f, hin, hid, hlink⟩
  · rintro ⟨f, hin, hid, hlink⟩
    exact ⟨f, Table.get?_eq_some_iff.2 ⟨hin, hid⟩, hlink⟩

theorem isLinked_iff_or (functionId : RowId) :
    s.isLinked id = true ↔ s.linkedTo? functionId = some id ∨ s.IsLinkedByOther functionId id := by
  rw [linkedTo?_eq_some_iff, isLinked_iff]
  constructor
  · rintro ⟨f, hf, hlink⟩
    by_cases hid : f.id = functionId
    · exact .inl ⟨f, hf, hid, hlink⟩
    · exact .inr ⟨f, hf, hid, hlink⟩
  · rintro (⟨f, hf, -, hlink⟩ | ⟨f, hf, -, hlink⟩)
    · exact ⟨f, hf, hlink⟩
    · exact ⟨f, hf, hlink⟩

/-! ## One link -/

theorem get?_link (s : Store) (functionId sourceId id : RowId) :
    (s.link functionId sourceId).functions.get? id =
      if id = functionId then
        (s.functions.get? id).map fun r => ⟨r.id, r.value.relink (some sourceId)⟩
      else s.functions.get? id := by
  rw [link_eq, relinked, Table.get?_modify]
  cases hrow : s.functions.get? id with
  | none => simp
  | some r =>
    obtain ⟨-, rfl⟩ := Table.get?_eq_some_iff.1 hrow
    split <;> simp_all

theorem linkedTo?_link (hfunction : s.functions.contains functionId = true) :
    (s.link functionId sourceId).linkedTo? functionId = some sourceId := by
  rw [← Table.isSome_get?] at hfunction
  obtain ⟨r, hr⟩ := Option.isSome_iff_exists.1 hfunction
  rw [linkedTo?, get?_link, if_pos rfl, hr]
  rfl

theorem isLinkedByOther_link :
    (s.link functionId sourceId).IsLinkedByOther functionId id ↔
      s.IsLinkedByOther functionId id := by
  rw [link_eq]
  simp only [IsLinkedByOther, relinked, Table.rows_modify, List.mem_map]
  constructor
  · rintro ⟨_, ⟨f, hf, rfl⟩, hid, hlink⟩
    rw [BinaryColumns.matchedSource_relink, if_neg hid] at hlink
    exact ⟨f, hf, hid, hlink⟩
  · rintro ⟨f, hf, hid, hlink⟩
    exact ⟨_, ⟨f, hf, rfl⟩, hid, by rwa [BinaryColumns.matchedSource_relink, if_neg hid]⟩

theorem isLinked_link (hfunction : s.functions.contains functionId = true) :
    (s.link functionId sourceId).isLinked id = true ↔
      id = sourceId ∨ s.IsLinkedByOther functionId id := by
  rw [isLinked_iff_or functionId, linkedTo?_link hfunction, isLinkedByOther_link,
    Option.some.injEq, eq_comm]

/-- Marks are only added. -/
theorem sources_link (s : Store) (functionId sourceId : RowId) :
    (s.link functionId sourceId).sources.rows = s.sources.rows.map fun r =>
      ⟨r.id, r.value.mark (decide (r.id = sourceId) || r.value.matched)⟩ := by
  rw [link_eq]
  rfl

/-- A mark tells a link, or the one that was there before. -/
theorem matched_link_iff (hmarks : s.MarksAgree)
    (hfunction : s.functions.contains functionId = true) {r : Row SourceColumns}
    (hr : r ∈ s.sources.rows) :
    (decide (r.id = sourceId) || r.value.matched) = true ↔
      (s.link functionId sourceId).isLinked r.id = true ∨ s.linkedTo? functionId = some r.id := by
  rw [Bool.or_eq_true, decide_eq_true_eq, hmarks r hr, isLinked_link hfunction,
    isLinked_iff_or functionId]
  tauto

theorem marksAgree_link_iff (hmarks : s.MarksAgree)
    (hfunction : s.functions.contains functionId = true) :
    (s.link functionId sourceId).MarksAgree ↔ ∀ r ∈ s.sources.rows,
      s.linkedTo? functionId = some r.id → r.id = sourceId ∨ s.IsLinkedByOther functionId r.id := by
  rw [MarksAgree, sources_link, List.forall_mem_map]
  refine forall₂_congr fun r hr => ?_
  rw [Bool.eq_iff_iff, SourceColumns.matched_mark, matched_link_iff hmarks hfunction hr,
    or_iff_left_iff_imp, isLinked_link hfunction]

theorem setMatch_ok (hsource : s.sources.contains sourceId = true) :
    s.setMatch functionId sourceId = .ok (s.link functionId sourceId) := by
  rw [setMatch, if_neg (by simp [hsource])]

/-- What a link that is set does if marks and links agree: marks and links agree again just if the
source function that it led to before is still linked to. -/
theorem setMatch_marks {functionId sourceId : RowId} (hmarks : s.MarksAgree)
    (hfunction : s.functions.contains functionId = true)
    (hsource : s.sources.contains sourceId = true) :
    ∃ s', s.setMatch functionId sourceId = .ok s' ∧
      (∃ target matched, s' = s.relinked target matched) ∧
      s'.linkedTo? functionId = some sourceId ∧
      (∀ id, id ≠ functionId → s'.linkedTo? id = s.linkedTo? id) ∧
      (∀ r ∈ s'.sources.rows, r.value.matched = true ↔
        s'.isLinked r.id = true ∨ s.linkedTo? functionId = some r.id) ∧
      (s'.MarksAgree ↔ ∀ r ∈ s.sources.rows, s.linkedTo? functionId = some r.id →
        r.id = sourceId ∨ s.IsLinkedByOther functionId r.id) := by
  refine ⟨_, setMatch_ok hsource, ⟨_, _, link_eq s functionId sourceId⟩, linkedTo?_link hfunction,
    fun id hid => ?_, ?_, marksAgree_link_iff hmarks hfunction⟩
  · rw [linkedTo?, get?_link, if_neg hid, linkedTo?]
  · rw [sources_link, List.forall_mem_map]
    exact fun r hr => matched_link_iff hmarks hfunction hr

/-- The source functions `run` and `stop`, and functions at some addresses that are linked to
`run`. -/
def linkedToRun (addresses : List UInt64) : Store :=
  let source (name : String) : SourceFunction :=
    { crate := "app", name, fullName := "app::" ++ name, kind := .normal "app", status := .ok,
      version := "1.0.0", signature := none, matched := name == "run" }
  let function (address : UInt64) : BinaryFunction :=
    { crate := "app", name := "run", fullName := "app::run", kind := .normal "app", status := .ok,
      binary := "server", address, signature := "", matchedSource := some 1 }
  let sources := ((empty.addCrate ⟨"app", "1.0.0"⟩).addSource 1 (source "run")).addSource 1
    (source "stop")
  addresses.foldl (fun s address => s.addFunction 1 (function address))
    (sources.addBinary ⟨"server", none⟩)

theorem setMatch_marks_shared :
    (linkedToRun [16, 32]).MarksAgree ∧ ∃ s', (linkedToRun [16, 32]).setMatch 1 2 = .ok s' ∧
      s'.linkedTo? 1 = some 2 ∧ s'.linkedTo? 2 = some 1 ∧ s'.MarksAgree := by
  have hmarks : (linkedToRun [16, 32]).MarksAgree := by decide +kernel
  have hfunction : (linkedToRun [16, 32]).functions.contains 1 = true := by decide +kernel
  have hsource : (linkedToRun [16, 32]).sources.contains 2 = true := by decide +kernel
  obtain ⟨s', hset, -, hlinked, hothers, -, hagree⟩ := setMatch_marks hmarks hfunction hsource
  refine ⟨hmarks, s', hset, hlinked, ?_, hagree.mpr (by decide +kernel)⟩
  rw [hothers 2 (by decide)]
  decide +kernel

/-- Nothing is linked to `run` any more, but it is still marked. -/
theorem setMatch_marks_last :
    ¬ ∀ (s s' : Store) (functionId sourceId : RowId), s.MarksAgree →
      s.functions.contains functionId = true → s.sources.contains sourceId = true →
      s.setMatch functionId sourceId = .ok s' → s'.MarksAgree := by
  intro hall
  have hset : (linkedToRun [16]).setMatch 1 2 = .ok ((linkedToRun [16]).link 1 2) :=
    setMatch_ok (by decide +kernel)
  have hagree := hall _ _ 1 2 (by decide +kernel) (by decide +kernel) (by decide +kernel) hset
  revert hagree
  decide +kernel

end CrateTrace.Store
