import CrateTrace.Proofs.Store.Tables

/-!
# Links made one after the other

If no function is linked twice, making links one by one changes every function and every source
function at most once, so that the order does not matter.
-/

namespace CrateTrace.Store

/-- Makes links, each given as the numbers of a function and of a source function. -/
def linkEach (s : Store) (links : List (RowId × RowId)) : Store :=
  links.foldl (fun s l => s.link l.1 l.2) s

theorem linkEach_append (s : Store) (links more : List (RowId × RowId)) :
    s.linkEach (links ++ more) = (s.linkEach links).linkEach more := List.foldl_append

def BinaryColumns.relink (f : BinaryColumns) (target : Option RowId) : BinaryColumns :=
  { f with matchedSource := target }

def SourceColumns.mark (f : SourceColumns) (matched : Bool) : SourceColumns :=
  { f with matched }

@[simp] theorem BinaryColumns.relink_relink (f : BinaryColumns) (a b : Option RowId) :
    (f.relink a).relink b = f.relink b := rfl

@[simp] theorem BinaryColumns.relink_matchedSource (f : BinaryColumns) :
    f.relink f.matchedSource = f := rfl

@[simp] theorem BinaryColumns.matchedSource_relink (f : BinaryColumns) (a : Option RowId) :
    (f.relink a).matchedSource = a := rfl

@[simp] theorem SourceColumns.mark_mark (f : SourceColumns) (a b : Bool) :
    (f.mark a).mark b = f.mark b := rfl

@[simp] theorem SourceColumns.mark_matched (f : SourceColumns) : f.mark f.matched = f := rfl

@[simp] theorem SourceColumns.matched_mark (f : SourceColumns) (a : Bool) :
    (f.mark a).matched = a := rfl

/-- Lets the links of functions lead elsewhere and sets the marks of source functions. -/
def relinked (s : Store) (target : Row BinaryColumns → Option RowId)
    (matched : Row SourceColumns → Bool) : Store :=
  { s with
    functions := s.functions.modify fun r => r.value.relink (target r)
    sources := s.sources.modify fun r => r.value.mark (matched r) }

theorem relinked_self (s : Store) :
    s.relinked (fun r => r.value.matchedSource) (fun r => r.value.matched) = s := by
  simp [relinked, Table.modify_id]

theorem relinked_relinked (s : Store) (t t' : Row BinaryColumns → Option RowId)
    (m m' : Row SourceColumns → Bool) :
    (s.relinked t m).relinked t' m' =
      s.relinked (fun r => t' ⟨r.id, r.value.relink (t r)⟩)
        (fun r => m' ⟨r.id, r.value.mark (m r)⟩) := by
  simp [relinked]

theorem relinked_congr {s : Store} {t t' : Row BinaryColumns → Option RowId}
    {m m' : Row SourceColumns → Bool} (ht : ∀ r ∈ s.functions.rows, t r = t' r)
    (hm : ∀ r ∈ s.sources.rows, m r = m' r) : s.relinked t m = s.relinked t' m' := by
  have hfunctions : (s.functions.modify fun r => r.value.relink (t r)) =
      s.functions.modify fun r => r.value.relink (t' r) :=
    Table.modify_congr fun r hr => by rw [ht r hr]
  have hsources : (s.sources.modify fun r => r.value.mark (m r)) =
      s.sources.modify fun r => r.value.mark (m' r) :=
    Table.modify_congr fun r hr => by rw [hm r hr]
  simp only [relinked, hfunctions, hsources]

theorem link_eq (s : Store) (functionId sourceId : RowId) :
    s.link functionId sourceId =
      s.relinked (fun r => if r.id = functionId then some sourceId else r.value.matchedSource)
        (fun r => decide (r.id = sourceId) || r.value.matched) := by
  unfold link relinked Table.update
  congr 1 <;> apply Table.modify_congr <;> intro r _ <;> split <;> simp_all [BinaryColumns.relink,
    SourceColumns.mark]

theorem linkEach_eq (s : Store) (links : List (RowId × RowId))
    (h : (links.map Prod.fst).Nodup) :
    s.linkEach links =
      s.relinked (fun r => (links.lookup r.id).or r.value.matchedSource)
        (fun r => links.any (fun l => decide (r.id = l.2)) || r.value.matched) := by
  induction links generalizing s with
  | nil => simpa [linkEach] using (relinked_self s).symm
  | cons l links ih =>
    obtain ⟨functionId, sourceId⟩ := l
    rw [List.map_cons, List.nodup_cons] at h
    have hnew : links.lookup functionId = none := by
      rw [List.lookup_eq_none_iff]
      intro l hl
      have hne : functionId ≠ l.1 := fun heq => h.1 (List.mem_map.2 ⟨l, hl, heq.symm⟩)
      simpa using hne
    have hstep : s.linkEach ((functionId, sourceId) :: links) =
        (s.link functionId sourceId).linkEach links := rfl
    rw [hstep, ih _ h.2, link_eq, relinked_relinked]
    apply relinked_congr
    · intro r _
      by_cases hr : r.id = functionId
      · simp [hr, hnew]
      · simp [hr, List.lookup_cons, beq_eq_false_iff_ne.2 hr]
    · intro r _
      simp [Bool.or_left_comm, Bool.or_assoc]

/-! ## Links given row by row -/

variable {α β : Type}

/-- What `g` says of the rows, under their numbers. -/
def keyed (rows : List (Row α)) (g : Row α → Option β) : List (RowId × β) :=
  rows.filterMap fun r => (g r).map (r.id, ·)

theorem keyed_cons (r : Row α) (rows : List (Row α)) (g : Row α → Option β) :
    keyed (r :: rows) g = (g r).toList.map (r.id, ·) ++ keyed rows g := by
  unfold keyed
  cases h : g r <;> simp [h]

theorem keys_sublist (rows : List (Row α)) (g : Row α → Option β) :
    ((keyed rows g).map Prod.fst).Sublist (rows.map Row.id) := by
  induction rows with
  | nil => exact .slnil
  | cons r rows ih =>
    rw [keyed_cons]
    cases h : g r with
    | none => simpa using ih.cons r.id
    | some b => simpa using ih.cons_cons r.id

theorem lookup_keyed {rows : List (Row α)} (hnodup : (rows.map Row.id).Nodup)
    (g : Row α → Option β) {r : Row α} (hr : r ∈ rows) : (keyed rows g).lookup r.id = g r := by
  induction rows with
  | nil => cases hr
  | cons first rows ih =>
    rw [List.map_cons, List.nodup_cons] at hnodup
    rw [keyed_cons]
    rcases List.mem_cons.1 hr with rfl | hr
    · cases h : g r with
      | some b => simp
      | none =>
        have hgone : ∀ l ∈ keyed rows g, r.id ≠ l.1 := fun l hl heq =>
          hnodup.1 (heq ▸ (keys_sublist rows g).subset (List.mem_map_of_mem hl))
        simpa [List.lookup_eq_none_iff] using hgone
    · have hne : r.id ≠ first.id := fun heq => hnodup.1 (heq ▸ List.mem_map_of_mem hr)
      cases h : g first with
      | none => simpa using ih hnodup.2 hr
      | some b => simpa [List.lookup_cons, beq_eq_false_iff_ne.2 hne] using ih hnodup.2 hr

theorem any_keyed (rows : List (Row α)) (g : Row α → Option β) (p : β → Bool) :
    (keyed rows g).any (fun l => p l.2) = rows.any fun r => (g r).any p := by
  induction rows with
  | nil => rfl
  | cons r rows ih =>
    rw [keyed_cons, List.any_append, ih, List.any_cons]
    cases g r <;> simp

end CrateTrace.Store
