import CrateTrace.Store.Query
import Mathlib.Data.List.Basic
import Mathlib.Data.List.Nodup

/-!
# Rows of tables

A row is known by its number. Values may change, but numbers stay with their rows.
-/

namespace CrateTrace.Store

variable {α β : Type}

namespace Table

@[ext] theorem ext {t u : Table α} (hrows : t.rows = u.rows) (hlast : t.last = u.last) :
    t = u := by
  cases t; cases u
  simp_all

/-! ## Numbers -/

theorem ids_nodup (t : Table α) : (t.rows.map Row.id).Nodup :=
  (List.pairwise_map.2 t.ascending).imp Int.ne_of_lt

theorem eq_of_id_eq (t : Table α) {a b : Row α} (ha : a ∈ t.rows) (hb : b ∈ t.rows)
    (h : a.id = b.id) : a = b :=
  List.inj_on_of_nodup_map t.ids_nodup ha hb h

theorem id_lt_next (t : Table α) {r : Row α} (h : r ∈ t.rows) : r.id < t.next :=
  Int.lt_add_one_of_le (t.bounded r h)

theorem contains_iff {t : Table α} {id : RowId} : t.contains id ↔ ∃ r ∈ t.rows, r.id = id := by
  simp [contains]

theorem isSome_get? (t : Table α) (id : RowId) : (t.get? id).isSome = t.contains id := by
  rw [Bool.eq_iff_iff]
  simp [get?, contains]

theorem get?_eq_some_iff {t : Table α} {id : RowId} {r : Row α} :
    t.get? id = some r ↔ r ∈ t.rows ∧ r.id = id := by
  constructor
  · intro h
    exact ⟨List.mem_of_find?_eq_some h, by simpa using List.find?_some h⟩
  · rintro ⟨hr, rfl⟩
    have hthere : (t.get? r.id).isSome := by
      rw [isSome_get?]
      exact contains_iff.2 ⟨r, hr, rfl⟩
    obtain ⟨found, hfound⟩ := Option.isSome_iff_exists.1 hthere
    have hid : found.id = r.id := by simpa using List.find?_some hfound
    rw [hfound, t.eq_of_id_eq (List.mem_of_find?_eq_some hfound) hr hid]

/-! ## Changes of values -/

@[simp] theorem last_modify (t : Table α) (f : Row α → α) : (t.modify f).last = t.last := rfl

@[simp] theorem contains_modify (t : Table α) (f : Row α → α) (id : RowId) :
    (t.modify f).contains id = t.contains id := by
  simp [contains, Function.comp_def]

theorem get?_modify (t : Table α) (f : Row α → α) (id : RowId) :
    (t.modify f).get? id = (t.get? id).map fun r => ⟨r.id, f r⟩ := by
  rw [get?, get?, rows_modify, List.find?_map]
  rfl

@[simp] theorem modify_modify (t : Table α) (f g : Row α → α) :
    (t.modify f).modify g = t.modify fun r => g ⟨r.id, f r⟩ := by
  ext1 <;> simp

theorem modify_congr {t : Table α} {f g : Row α → α} (h : ∀ r ∈ t.rows, f r = g r) :
    t.modify f = t.modify g := by
  ext1
  · simp only [rows_modify]
    exact List.map_congr_left fun r hr => by rw [h r hr]
  · rfl

theorem eq_of_modify_eq {t : Table α} {f g : Row α → α} (h : t.modify f = t.modify g) :
    ∀ r ∈ t.rows, f r = g r := by
  have hrows := congrArg Table.rows h
  rw [rows_modify, rows_modify, List.map_inj_left] at hrows
  exact fun r hr => congrArg Row.value (hrows r hr)

theorem modify_id (t : Table α) : (t.modify fun r => r.value) = t := by
  ext1 <;> simp

/-- Rows that a change leaves as they are, told by what they meet afterwards. -/
theorem filter_modify {t : Table α} {f : Row α → α} {p q : Row α → Bool}
    (hp : ∀ r ∈ t.rows, p ⟨r.id, f r⟩ = q r) (hfixed : ∀ r ∈ t.rows, q r = true → f r = r.value) :
    (t.modify f).rows.filter p = t.rows.filter q := by
  have hrows : t.rows.filter (p ∘ fun r => ⟨r.id, f r⟩) = t.rows.filter q := List.filter_congr hp
  rw [rows_modify, List.filter_map, hrows]
  conv_rhs => rw [← List.map_id (t.rows.filter q)]
  apply List.map_congr_left
  intro r hr
  obtain ⟨hin, hq⟩ := List.mem_filter.1 hr
  rw [hfixed r hin hq, id]

/-! ## What holds of all rows -/

def All (P : α → Prop) (t : Table α) : Prop := ∀ r ∈ t.rows, P r.value

theorem All.modify {P Q : α → Prop} {t : Table α} {f : Row α → α} (h : t.All P)
    (hf : ∀ r, P r.value → Q (f r)) : (t.modify f).All Q := by
  intro r hr
  obtain ⟨r', hr', rfl⟩ := List.mem_map.1 hr
  exact hf r' (h r' hr')

theorem All.filter {P : α → Prop} {t : Table α} (h : t.All P) (p : Row α → Bool) :
    (t.filter p).All P :=
  fun r hr => h r (List.mem_filter.1 hr).1

theorem All.imp {P Q : α → Prop} {t : Table α} (h : t.All P) (hPQ : ∀ a, P a → Q a) : t.All Q :=
  fun r hr => hPQ r.value (h r hr)

/-! ## Rows that come together -/

def insertAll (t : Table α) (values : List α) : Table α := values.foldl insert t

/-- The new rows stand behind the old ones, under numbers not given before. -/
theorem rows_insertAll (t : Table α) (values : List α) :
    ∃ added, (t.insertAll values).rows = t.rows ++ added ∧ added.map Row.value = values ∧
      ∀ r ∈ added, t.last < r.id := by
  induction values generalizing t with
  | nil => exact ⟨[], (List.append_nil _).symm, rfl, by simp⟩
  | cons value values ih =>
    obtain ⟨added, hrows, hvalues, hnew⟩ := ih (t.insert value)
    have hnext : t.last < t.next := Int.lt_succ t.last
    refine ⟨⟨t.next, value⟩ :: added, ?_, by rw [List.map_cons, hvalues], ?_⟩
    · have hstep : t.insertAll (value :: values) = (t.insert value).insertAll values := rfl
      rw [hstep, hrows, rows_insert, List.append_assoc, List.singleton_append]
    · intro r hr
      rcases List.mem_cons.1 hr with rfl | hr
      · exact hnext
      · exact Int.lt_trans hnext (hnew r hr)

theorem last_le_insertAll (t : Table α) (values : List α) : t.last ≤ (t.insertAll values).last := by
  induction values generalizing t with
  | nil => exact Int.le_refl _
  | cons value values ih => exact Int.le_trans (Int.le_of_lt (Int.lt_succ t.last)) (ih _)

theorem modify_insertAll (g : α → α) (t : Table α) (values : List α) :
    (t.insertAll values).modify (fun r => g r.value) =
      (t.modify fun r => g r.value).insertAll (values.map g) := by
  induction values generalizing t with
  | nil => rfl
  | cons value values ih =>
    have hstep : (t.insert value).modify (fun r => g r.value) =
        (t.modify fun r => g r.value).insert (g value) := by
      ext1 <;> simp [insert, next]
    rw [List.map_cons]
    exact (ih (t.insert value)).trans (congrArg (insertAll · (values.map g)) hstep)

theorem All.insertAll {P : α → Prop} {t : Table α} {values : List α} (h : t.All P)
    (hvalues : ∀ v ∈ values, P v) : (t.insertAll values).All P := by
  obtain ⟨added, hadded, hmap, -⟩ := t.rows_insertAll values
  intro r hr
  rw [hadded] at hr
  rcases List.mem_append.1 hr with hr | hr
  · exact h r hr
  · exact hvalues r.value (hmap ▸ List.mem_map_of_mem hr)

/-- If the new values, and they alone, are of one kind, then this kind tells new rows from old ones. -/
theorem filter_insertAll {t : Table α} {values : List α} {p : α → Bool}
    (hold : ∀ r ∈ t.rows, p r.value = false) (hnew : ∀ v ∈ values, p v = true) :
    ((t.insertAll values).rows.filter fun r => p r.value).map Row.value = values ∧
      ((t.insertAll values).rows.filter fun r => !p r.value) = t.rows := by
  obtain ⟨added, hrows, hvalues, -⟩ := t.rows_insertAll values
  have hadded : ∀ r ∈ added, p r.value = true := fun r hr =>
    hnew r.value (hvalues ▸ List.mem_map_of_mem hr)
  rw [hrows, List.filter_append, List.filter_append]
  constructor
  · have hnone : (t.rows.filter fun r => p r.value) = [] :=
      List.filter_eq_nil_iff.2 fun r hr => by simp [hold r hr]
    have hall : (added.filter fun r => p r.value) = added := List.filter_eq_self.2 hadded
    rw [hnone, hall, List.nil_append, hvalues]
  · have hall : (t.rows.filter fun r => !p r.value) = t.rows :=
      List.filter_eq_self.2 fun r hr => by simp [hold r hr]
    have hnone : (added.filter fun r => !p r.value) = [] :=
      List.filter_eq_nil_iff.2 fun r hr => by simp [hadded r hr]
    rw [hall, hnone, List.append_nil]

/-! ## Numbers that are never given again -/

/-- A later state of a table: a number that was given before belongs to nobody but the row that had
it. -/
structure Keeps (same : α → α → Prop) (t t' : Table α) : Prop where
  last : t.last ≤ t'.last
  rows : ∀ r' ∈ t'.rows, t.last < r'.id ∨ ∃ r ∈ t.rows, r.id = r'.id ∧ same r.value r'.value

section Keeps

variable {same : α → α → Prop} {t t' t'' : Table α}

theorem Keeps.refl (hrefl : ∀ a, same a a) (t : Table α) : t.Keeps same t where
  last := Int.le_refl _
  rows := fun r hr => .inr ⟨r, hr, rfl, hrefl r.value⟩

theorem Keeps.trans (htrans : ∀ a b c, same a b → same b c → same a c) (h : t.Keeps same t')
    (h' : t'.Keeps same t'') : t.Keeps same t'' where
  last := Int.le_trans h.last h'.last
  rows := by
    intro r'' hr''
    rcases h'.rows r'' hr'' with hnew | ⟨r', hr', hid', hsame'⟩
    · exact .inl (Int.lt_of_le_of_lt h.last hnew)
    · rcases h.rows r' hr' with hnew | ⟨r, hr, hid, hsame⟩
      · exact .inl (hid' ▸ hnew)
      · exact .inr ⟨r, hr, hid.trans hid', htrans _ _ _ hsame hsame'⟩

/-- Rows with one number are the same. -/
theorem Keeps.same_of_id_eq (h : t.Keeps same t') {r r' : Row α} (hr : r ∈ t.rows)
    (hr' : r' ∈ t'.rows) (hid : r.id = r'.id) : same r.value r'.value := by
  rcases h.rows r' hr' with hnew | ⟨found, hfound, hfid, hsame⟩
  · have hle : r'.id ≤ t.last := hid ▸ t.bounded r hr
    exact absurd hnew (Int.not_lt.2 hle)
  · rwa [t.eq_of_id_eq hr hfound (hid.trans hfid.symm)]

theorem Keeps.modify {f : Row α → α} (hf : ∀ r, same r.value (f r)) (t : Table α) :
    t.Keeps same (t.modify f) where
  last := Int.le_refl _
  rows := by
    intro r' hr'
    obtain ⟨r, hr, rfl⟩ := List.mem_map.1 hr'
    exact .inr ⟨r, hr, rfl, hf r⟩

theorem Keeps.filter (h : t.Keeps same t') (p : Row α → Bool) : t.Keeps same (t'.filter p) where
  last := h.last
  rows := fun r' hr' => h.rows r' (List.mem_filter.1 hr').1

theorem Keeps.insertAll (h : t.Keeps same t') (values : List α) :
    t.Keeps same (t'.insertAll values) where
  last := Int.le_trans h.last (t'.last_le_insertAll values)
  rows := by
    obtain ⟨added, hrows, -, hnew⟩ := t'.rows_insertAll values
    intro r' hr'
    rw [hrows] at hr'
    rcases List.mem_append.1 hr' with hr' | hr'
    · exact h.rows r' hr'
    · exact .inl (Int.lt_of_le_of_lt h.last (hnew r' hr'))

end Keeps

end Table

end CrateTrace.Store
