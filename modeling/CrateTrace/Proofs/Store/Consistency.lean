import CrateTrace.Proofs.Store.Links
import Mathlib.Data.List.Dedup

/-!
# Marks and links agree

A source function is marked as matched if a function is linked to it. Every operation on the store
keeps the two in step.
-/

namespace CrateTrace.Store

/-- Marks tell just the linked source functions, links lead to source functions that are there, and
only functions that are `ok` have links. -/
structure Consistent (s : Store) : Prop where
  marks : ∀ r ∈ s.sources.rows, r.value.matched = s.isLinked r.id
  targets : ∀ f ∈ s.functions.rows, ∀ id, f.value.matchedSource = some id → s.sources.contains id
  statuses : ∀ f ∈ s.functions.rows, f.value.matchedSource ≠ none → f.value.hasStatus .ok

theorem isLinked_iff {s : Store} {id : RowId} :
    s.isLinked id ↔ ∃ f ∈ s.functions.rows, f.value.matchedSource = some id := by
  simp [isLinked]

theorem Consistent.of_rows {s s' : Store} (h : s.Consistent)
    (hsources : s'.sources.rows = s.sources.rows)
    (hfunctions : s'.functions.rows = s.functions.rows) : s'.Consistent := by
  obtain ⟨hmarks, htargets, hstatuses⟩ := h
  constructor
  · simpa only [isLinked, hsources, hfunctions] using hmarks
  · simpa only [Table.contains, hsources, hfunctions] using htargets
  · simpa only [hfunctions] using hstatuses

theorem consistent_empty : empty.Consistent where
  marks := by simp [empty]
  targets := by simp [empty]
  statuses := by simp [empty]

/-! ## Source functions -/

/-- A number not given yet is not linked to. -/
theorem Consistent.isLinked_next {s : Store} (h : s.Consistent) :
    s.isLinked s.sources.next = false := by
  rw [Bool.eq_false_iff]
  intro hlinked
  obtain ⟨f, hf, hlink⟩ := isLinked_iff.1 hlinked
  obtain ⟨r, hr, hid⟩ := Table.contains_iff.1 (h.targets f hf _ hlink)
  exact Int.lt_irrefl _ (hid ▸ s.sources.id_lt_next hr)

theorem Consistent.addSource {s : Store} (h : s.Consistent) (crateId : RowId) {f : SourceFunction}
    (hf : f.matched = false) : (s.addSource crateId f).Consistent where
  marks := by
    intro r hr
    rcases List.mem_append.1 hr with hr | hr
    · exact h.marks r hr
    · rw [List.mem_singleton] at hr
      subst hr
      exact hf.trans h.isLinked_next.symm
  targets := by
    intro g hg id hlink
    have hold := h.targets g hg id hlink
    simp_all [Store.addSource, Table.contains]
  statuses := h.statuses

theorem Consistent.setSignature {s : Store} (h : s.Consistent) (sourceId : RowId)
    (signature : String) : (s.setSignature sourceId signature).Consistent where
  marks := by
    intro r hr
    obtain ⟨r', hr', rfl⟩ := List.mem_map.1 hr
    have hmark := h.marks r' hr'
    dsimp only
    split <;> exact hmark
  targets := by
    intro f hf id hlink
    simpa [Store.setSignature, Table.update] using h.targets f hf id hlink
  statuses := h.statuses

theorem matchedSource_unlink {f : BinaryColumns} {gone : RowId → Bool} {id : RowId} :
    (f.unlink gone).matchedSource = some id ↔ f.matchedSource = some id ∧ gone id = false := by
  simp [BinaryColumns.unlink, Option.filter_eq_some_iff]

/-- The numbers of the source functions of a crate version. -/
def sourceIds (s : Store) (crateId : RowId) : List RowId :=
  (s.sources.rows.filter (·.value.crateId == crateId)).map (·.id)

theorem contains_sourceIds {s : Store} {crateId : RowId} {r : Row SourceColumns}
    (hr : r ∈ s.sources.rows) :
    (s.sourceIds crateId).contains r.id = (r.value.crateId == crateId) := by
  rw [Bool.eq_iff_iff, List.contains_iff_mem, sourceIds, List.mem_map]
  constructor
  · rintro ⟨r', hr', hid⟩
    obtain ⟨hin, hcrate⟩ := List.mem_filter.1 hr'
    rwa [s.sources.eq_of_id_eq hr hin hid.symm]
  · exact fun hcrate => ⟨r, List.mem_filter.2 ⟨hr, hcrate⟩, rfl⟩

/-- The links that are left lead to the rows that are left. -/
theorem Consistent.deleteSources {s : Store} (h : s.Consistent) (crateId : RowId) :
    (s.deleteSources crateId).Consistent where
  marks := by
    intro r hr
    obtain ⟨hr, hcrate⟩ := List.mem_filter.1 hr
    have hkept : (s.sourceIds crateId).contains r.id = false := by
      rw [contains_sourceIds hr]
      simpa using hcrate
    rw [h.marks r hr, Bool.eq_iff_iff, isLinked_iff, isLinked_iff]
    constructor
    · rintro ⟨f, hf, hlink⟩
      exact ⟨_, List.mem_map_of_mem hf, matchedSource_unlink.2 ⟨hlink, hkept⟩⟩
    · rintro ⟨f, hf, hlink⟩
      obtain ⟨f', hf', rfl⟩ := List.mem_map.1 hf
      exact ⟨f', hf', (matchedSource_unlink.1 hlink).1⟩
  targets := by
    intro f hf id hlink
    obtain ⟨f', hf', rfl⟩ := List.mem_map.1 hf
    obtain ⟨hold, hkept⟩ := matchedSource_unlink.1 hlink
    obtain ⟨r, hr, rfl⟩ := Table.contains_iff.1 (h.targets f' hf' id hold)
    have hcrate : (r.value.crateId == crateId) = false := (contains_sourceIds hr).symm.trans hkept
    exact Table.contains_iff.2 ⟨r, List.mem_filter.2 ⟨hr, by simpa using hcrate⟩, rfl⟩
  statuses := by
    intro f hf hlink
    obtain ⟨f', hf', rfl⟩ := List.mem_map.1 hf
    obtain ⟨id, hid⟩ := Option.ne_none_iff_exists'.1 hlink
    exact h.statuses f' hf' (by simp [(matchedSource_unlink.1 hid).1])

/-! ## Functions of binaries -/

theorem Consistent.addFunction {s : Store} (h : s.Consistent) (binaryId : RowId)
    {f : BinaryFunction} (hf : f.matchedSource = none) :
    (s.addFunction binaryId f).Consistent where
  marks := by
    intro r hr
    rw [h.marks r hr]
    simp [isLinked, Store.addFunction, BinaryColumns.ofFunction, hf]
  targets := by
    intro g hg id hlink
    rcases List.mem_append.1 hg with hg | hg
    · exact h.targets g hg id hlink
    · rw [List.mem_singleton] at hg
      subst hg
      cases hf.symm.trans hlink
  statuses := by
    intro g hg hlink
    rcases List.mem_append.1 hg with hg | hg
    · exact h.statuses g hg hlink
    · rw [List.mem_singleton] at hg
      subst hg
      exact absurd hf hlink

theorem Consistent.deleteFunctions {s : Store} (h : s.Consistent) (binaryId : RowId) :
    (s.deleteFunctions binaryId).Consistent where
  marks := by
    intro r hr
    obtain ⟨r', -, rfl⟩ := List.mem_map.1 hr
    rfl
  targets := by
    intro f hf id hlink
    simpa [Store.deleteFunctions, refreshMatched] using
      h.targets f (List.mem_filter.1 hf).1 id hlink
  statuses := fun f hf => h.statuses f (List.mem_filter.1 hf).1

theorem Consistent.setHash {s : Store} (h : s.Consistent) (binaryId : RowId)
    (hash : Option String) : (s.setHash binaryId hash).Consistent := h.of_rows rfl rfl

/-! ## Links -/

theorem consistent_relinked {s : Store} {target : Row BinaryColumns → Option RowId}
    {matched : Row SourceColumns → Bool}
    (hmarks : ∀ r ∈ s.sources.rows,
      matched r ↔ ∃ f ∈ s.functions.rows, target f = some r.id)
    (htargets : ∀ f ∈ s.functions.rows, ∀ id, target f = some id → s.sources.contains id)
    (hstatuses : ∀ f ∈ s.functions.rows, target f ≠ none → f.value.hasStatus .ok) :
    (s.relinked target matched).Consistent where
  marks := by
    intro r hr
    obtain ⟨r', hr', rfl⟩ := List.mem_map.1 hr
    rw [Bool.eq_iff_iff, isLinked_iff, SourceColumns.matched_mark, hmarks r' hr']
    constructor
    · rintro ⟨f, hf, hlink⟩
      exact ⟨_, List.mem_map_of_mem hf, hlink⟩
    · rintro ⟨f, hf, hlink⟩
      obtain ⟨f', hf', rfl⟩ := List.mem_map.1 hf
      exact ⟨f', hf', hlink⟩
  targets := by
    intro f hf id hlink
    obtain ⟨f', hf', rfl⟩ := List.mem_map.1 hf
    simpa [relinked] using htargets f' hf' id hlink
  statuses := by
    intro f hf hlink
    obtain ⟨f', hf', rfl⟩ := List.mem_map.1 hf
    exact hstatuses f' hf' hlink

/-! ## Listings and counts -/

theorem Consistent.isSome_linkOf? {s : Store} (h : s.Consistent) {f : Row BinaryColumns}
    (hf : f ∈ s.functions.rows) : (s.linkOf? f).isSome = f.value.matchedSource.isSome := by
  unfold linkOf?
  cases hlink : f.value.matchedSource with
  | none => rfl
  | some id =>
    have hthere : (s.sources.get? id).isSome := by
      rw [Table.isSome_get?]
      exact h.targets f hf id hlink
    simpa using hthere

theorem Consistent.length_listMatches {s : Store} (h : s.Consistent) :
    (s.listMatches none).length = s.stats.linkedBinaryFunctions := by
  have hall : s.listMatches none = (s.functions.rows.mergeSort binaryLe).filterMap s.linkOf? :=
    List.filter_eq_self.2 fun _ _ => rfl
  have hperm := (List.mergeSort_perm s.functions.rows binaryLe).filterMap s.linkOf?
  rw [hall, hperm.length_eq, List.length_filterMap_eq_countP]
  exact List.countP_congr fun f hf => by rw [h.isSome_linkOf? hf]

/-- The source functions that links lead to, once for each link. -/
def linkedSources (s : Store) : List RowId := s.functions.rows.filterMap (·.value.matchedSource)

theorem Consistent.length_linkedSources {s : Store} (h : s.Consistent) :
    s.linkedSources.dedup.length = s.stats.matchedSourceFunctions := by
  have hperm : s.linkedSources.dedup.Perm ((s.sources.rows.filter (·.value.matched)).map Row.id) := by
    rw [List.perm_ext_iff_of_nodup (List.nodup_dedup _)
      (s.sources.ids_nodup.sublist (List.filter_sublist.map _))]
    intro id
    rw [List.mem_dedup, linkedSources, List.mem_filterMap, List.mem_map]
    constructor
    · rintro ⟨f, hf, hlink⟩
      obtain ⟨r, hr, rfl⟩ := Table.contains_iff.1 (h.targets f hf id hlink)
      have hmatched : r.value.matched := by
        rw [h.marks r hr]
        exact isLinked_iff.2 ⟨f, hf, hlink⟩
      exact ⟨r, List.mem_filter.2 ⟨hr, hmatched⟩, rfl⟩
    · rintro ⟨r, hr, rfl⟩
      obtain ⟨hr, hmatched⟩ := List.mem_filter.1 hr
      rw [h.marks r hr] at hmatched
      exact isLinked_iff.1 hmatched
  rw [hperm.length_eq, List.length_map, ← List.countP_eq_length_filter]
  rfl

end CrateTrace.Store
