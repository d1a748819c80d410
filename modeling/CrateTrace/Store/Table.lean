/-!
# Tables

Rows are numbered in the order in which they come. A number is never given twice, also if its row is
gone.
-/

namespace CrateTrace.Store

abbrev RowId := Int

structure Row (α : Type) where
  id : RowId
  value : α
deriving DecidableEq, Repr

structure Table (α : Type) where
  rows : List (Row α)
  /-- The number given last. -/
  last : RowId
  ascending : rows.Pairwise fun a b => a.id < b.id
  bounded : ∀ r ∈ rows, r.id ≤ last
deriving DecidableEq

namespace Table

variable {α : Type}

def empty : Table α := ⟨[], 0, .nil, by simp⟩

def next (t : Table α) : RowId := t.last + 1

/-- Puts a row behind the others. -/
def insert (t : Table α) (value : α) : Table α :=
  { rows := t.rows ++ [⟨t.next, value⟩]
    last := t.next
    ascending := by
      have bounded := t.bounded
      simp only [List.pairwise_append, t.ascending, List.pairwise_singleton, true_and]
      intro a ha b hb
      simp only [List.mem_singleton] at hb
      subst hb
      exact Int.lt_add_one_of_le (bounded a ha)
    bounded := by
      intro r hr
      rcases List.mem_append.1 hr with hr | hr
      · exact Int.le_trans (t.bounded r hr) (Int.le_of_lt (Int.lt_succ t.last))
      · simp only [List.mem_singleton] at hr
        subst hr
        exact Int.le_refl _ }

/-- Gives the next number away without a row. -/
def skip (t : Table α) : Table α :=
  { rows := t.rows
    last := t.next
    ascending := t.ascending
    bounded := fun r hr => Int.le_trans (t.bounded r hr) (Int.le_of_lt (Int.lt_succ t.last)) }

/-- The rows that meet a condition. -/
def filter (t : Table α) (p : Row α → Bool) : Table α :=
  { rows := t.rows.filter p
    last := t.last
    ascending := t.ascending.filter p
    bounded := fun r hr => t.bounded r (List.mem_filter.1 hr).1 }

/-- Gives every row a new value. -/
def modify (t : Table α) (f : Row α → α) : Table α :=
  { rows := t.rows.map fun r => ⟨r.id, f r⟩
    last := t.last
    ascending := List.pairwise_map.2 t.ascending
    bounded := by
      intro r hr
      obtain ⟨r', hr', rfl⟩ := List.mem_map.1 hr
      exact t.bounded r' hr' }

/-- Gives one row a new value. Nothing happens if there is no such row. -/
def update (t : Table α) (id : RowId) (f : α → α) : Table α :=
  t.modify fun r => if r.id = id then f r.value else r.value

def find? (t : Table α) (p : α → Bool) : Option (Row α) := t.rows.find? fun r => p r.value

def get? (t : Table α) (id : RowId) : Option (Row α) := t.rows.find? fun r => r.id == id

def contains (t : Table α) (id : RowId) : Bool := t.rows.any fun r => r.id == id

def count (t : Table α) (p : α → Bool) : Nat := t.rows.countP fun r => p r.value

/-! ## What the operations show -/

@[simp] theorem rows_empty : (empty : Table α).rows = [] := rfl

@[simp] theorem rows_insert (t : Table α) (value : α) :
    (t.insert value).rows = t.rows ++ [⟨t.next, value⟩] := rfl

@[simp] theorem rows_skip (t : Table α) : t.skip.rows = t.rows := rfl

@[simp] theorem rows_filter (t : Table α) (p : Row α → Bool) :
    (t.filter p).rows = t.rows.filter p := rfl

@[simp] theorem rows_modify (t : Table α) (f : Row α → α) :
    (t.modify f).rows = t.rows.map fun r => ⟨r.id, f r⟩ := rfl

end Table

end CrateTrace.Store
