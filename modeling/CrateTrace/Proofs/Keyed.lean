import CrateTrace.Keyed
import Mathlib.Data.List.Dedup
import Mathlib.Data.List.Induction
import Mathlib.Data.List.Nodup
import Mathlib.Data.List.Perm.Lattice
import Mathlib.Data.List.Sort
import Mathlib.Data.String.Basic
import Mathlib.Order.Basic

/-!
# Tables in the order of their keys

A table that is filled pair by pair holds the last value of each key.
-/

namespace CrateTrace.Keyed

variable {κ α β : Type}

/-! ## Orders -/

structure IsOrder (before : κ → κ → Bool) : Prop where
  irrefl : ∀ a, ¬ before a a
  trans : ∀ {a b c}, before a b → before b c → before a c
  total : ∀ {a b}, ¬ before a b → ¬ before b a → a = b

theorem isOrder_of_linearOrder [LinearOrder κ] : IsOrder fun a b : κ => decide (a < b) where
  irrefl := by simp
  trans hab hbc := by
    simp only [decide_eq_true_eq] at hab hbc ⊢
    exact lt_trans hab hbc
  total hab hba := by
    simp only [decide_eq_true_eq, not_lt] at hab hba
    exact le_antisymm hba hab

theorem isOrder_textBefore : IsOrder textBefore := isOrder_of_linearOrder

theorem isOrder_wordBefore : IsOrder wordBefore where
  irrefl a := by simp [wordBefore]
  trans hab hbc := by
    simp only [wordBefore, decide_eq_true_eq, UInt64.lt_iff_toNat_lt] at hab hbc ⊢
    omega
  total hab hba := by
    simp only [wordBefore, decide_eq_true_eq, UInt64.lt_iff_toNat_lt] at hab hba
    exact UInt64.toNat_inj.1 (by omega)

def Ordered (before : κ → κ → Bool) (table : List (κ × α)) : Prop :=
  table.Pairwise fun a b => before a.1 b.1

variable {before : κ → κ → Bool} {table : List (κ × α)}

theorem IsOrder.ne (order : IsOrder before) {a b : κ} (h : before a b) : a ≠ b := by
  rintro rfl
  exact order.irrefl a h

theorem Ordered.nodup_keys (order : IsOrder before) (h : Ordered before table) :
    (table.map Prod.fst).Nodup :=
  List.pairwise_map.2 (h.imp fun hab => order.ne hab)

theorem find?_of_mem [BEq κ] [LawfulBEq κ] (order : IsOrder before) (h : Ordered before table)
    {p : κ × α} (hp : p ∈ table) : find? p.1 table = some p.2 := by
  have hsome : (table.find? (·.1 == p.1)).isSome := List.find?_isSome.2 ⟨p, hp, beq_self_eq_true p.1⟩
  obtain ⟨q, hq⟩ := Option.isSome_iff_exists.1 hsome
  have hkey : q.1 = p.1 := by simpa using List.find?_some hq
  obtain rfl : q = p :=
    List.inj_on_of_nodup_map (h.nodup_keys order) (List.mem_of_find?_eq_some hq) hp hkey
  rw [find?, hq, Option.map_some]

/-- Tables that hold the same are the same. -/
theorem Ordered.eq_of_mem_iff {other : List (κ × α)} (order : IsOrder before)
    (h : Ordered before table) (h' : Ordered before other) (hmem : ∀ p, p ∈ table ↔ p ∈ other) :
    table = other := by
  have : Std.Irrefl fun a b : κ × α => before a.1 b.1 := ⟨fun a => order.irrefl a.1⟩
  have : Std.Antisymm fun a b : κ × α => before a.1 b.1 :=
    ⟨fun a b hab hba => absurd (order.trans hab hba) (order.irrefl a.1)⟩
  exact List.Pairwise.eq_of_mem_iff h h' hmem

/-! ## One more value -/

theorem of_mem_insert {key : κ} {value : α} {p : κ × α} (h : p ∈ insert before key value table) :
    p = (key, value) ∨ p ∈ table := by
  induction table with
  | nil => exact .inl (List.mem_singleton.1 h)
  | cons first rest ih =>
    obtain ⟨k, v⟩ := first
    unfold insert at h
    split_ifs at h
    · exact List.mem_cons.1 h
    · rcases List.mem_cons.1 h with rfl | h
      · exact .inr List.mem_cons_self
      · exact (ih h).imp_right (List.mem_cons_of_mem _)
    · exact (List.mem_cons.1 h).imp_right (List.mem_cons_of_mem _)

theorem of_mem_insertNew [BEq κ] {key : κ} {value : α} {p : κ × α}
    (h : p ∈ insertNew before key value table) : p = (key, value) ∨ p ∈ table := by
  unfold insertNew at h
  split_ifs at h
  · exact .inr h
  · exact of_mem_insert h

theorem mem_insert_iff (order : IsOrder before) (h : Ordered before table) {key : κ} {value : α}
    {p : κ × α} :
    p ∈ insert before key value table ↔ p = (key, value) ∨ p ∈ table ∧ p.1 ≠ key := by
  induction table with
  | nil => simp [insert]
  | cons first rest ih =>
    obtain ⟨k, v⟩ := first
    obtain ⟨hfirst, hrest⟩ := List.pairwise_cons.1 h
    unfold insert
    split_ifs with hbefore hafter
    · have hnew : ∀ q ∈ (k, v) :: rest, q.1 ≠ key := by
        intro q hq
        rcases List.mem_cons.1 hq with rfl | hq
        · exact (order.ne hbefore).symm
        · exact (order.ne (order.trans hbefore (hfirst q hq))).symm
      rw [List.mem_cons, and_iff_left_of_imp (hnew p)]
    · have hother : p = (k, v) → p.1 ≠ key := by
        rintro rfl
        exact order.ne hafter
      rw [List.mem_cons, List.mem_cons, ih hrest, or_and_right, and_iff_left_of_imp hother,
        or_left_comm]
    · obtain rfl : key = k := order.total hbefore hafter
      have hrest' : ∀ q ∈ rest, q.1 ≠ key := fun q hq => (order.ne (hfirst q hq)).symm
      have hgone : p = (key, v) → ¬ p.1 ≠ key := by
        rintro rfl
        simp
      rw [List.mem_cons, List.mem_cons, or_and_right, and_iff_left_of_imp (hrest' p)]
      refine or_congr_right (or_iff_right fun hp => hgone hp.1 hp.2).symm

theorem ordered_insert (order : IsOrder before) (h : Ordered before table) (key : κ) (value : α) :
    Ordered before (insert before key value table) := by
  induction table with
  | nil => exact List.pairwise_singleton _ _
  | cons first rest ih =>
    obtain ⟨k, v⟩ := first
    obtain ⟨hfirst, hrest⟩ := List.pairwise_cons.1 h
    unfold insert
    split_ifs with hbefore hafter
    · refine List.pairwise_cons.2 ⟨fun p hp => ?_, h⟩
      rcases List.mem_cons.1 hp with rfl | hp
      · exact hbefore
      · exact order.trans hbefore (hfirst p hp)
    · refine List.pairwise_cons.2 ⟨fun p hp => ?_, ih hrest⟩
      rcases (mem_insert_iff order hrest).1 hp with rfl | ⟨hp, -⟩
      · exact hafter
      · exact hfirst p hp
    · obtain rfl : key = k := order.total hbefore hafter
      exact List.pairwise_cons.2 ⟨hfirst, hrest⟩

/-! ## Whole tables -/

theorem ordered_ofPairs (order : IsOrder before) (pairs : List (κ × α)) :
    Ordered before (ofPairs before pairs) :=
  List.foldlRecOn pairs _ .nil fun _ htable p _ => ordered_insert order htable p.1 p.2

theorem mem_ofPairs_iff [DecidableEq κ] (order : IsOrder before) (pairs : List (κ × α)) {p : κ × α} :
    p ∈ ofPairs before pairs ↔ pairs.reverse.find? (·.1 = p.1) = some p := by
  induction pairs using List.reverseRecOn with
  | nil => simp [ofPairs]
  | append_singleton pairs last ih =>
    have hstep : ofPairs before (pairs ++ [last]) =
        insert before last.1 last.2 (ofPairs before pairs) := by
      unfold ofPairs
      rw [List.foldl_append]
      rfl
    obtain ⟨key, value⟩ := last
    rw [hstep, mem_insert_iff order (ordered_ofPairs order pairs), ih, List.reverse_append,
      List.reverse_singleton, List.singleton_append, List.find?_cons]
    by_cases hkey : key = p.1
    · simp [hkey, eq_comm]
    · have hne : p ≠ (key, value) := fun h => hkey (congrArg Prod.fst h).symm
      simp [hkey, hne, Ne.symm hkey]

theorem mem_keys_ofPairs_iff [DecidableEq κ] (order : IsOrder before) (pairs : List (κ × α)) {key : κ} :
    key ∈ (ofPairs before pairs).map Prod.fst ↔ key ∈ pairs.map Prod.fst := by
  constructor
  · intro hkey
    obtain ⟨p, hp, rfl⟩ := List.mem_map.1 hkey
    have hfound := List.mem_of_find?_eq_some ((mem_ofPairs_iff order pairs).1 hp)
    exact List.mem_map_of_mem (List.mem_reverse.1 hfound)
  · intro hkey
    obtain ⟨q, hq, rfl⟩ := List.mem_map.1 hkey
    have hsome : (pairs.reverse.find? (·.1 = q.1)).isSome :=
      List.find?_isSome.2 ⟨q, List.mem_reverse.2 hq, decide_eq_true rfl⟩
    obtain ⟨p, hp⟩ := Option.isSome_iff_exists.1 hsome
    have hpq : p.1 = q.1 := by simpa using List.find?_some hp
    rw [← hpq] at hp ⊢
    exact List.mem_map_of_mem ((mem_ofPairs_iff order pairs).2 hp)

/-- A table has a value for each key. -/
theorem length_ofPairs [DecidableEq κ] (order : IsOrder before) (pairs : List (κ × α)) :
    (ofPairs before pairs).length = (pairs.map Prod.fst).dedup.length := by
  have hkeys : ((ofPairs before pairs).map Prod.fst).Perm (pairs.map Prod.fst).dedup := by
    rw [List.perm_ext_iff_of_nodup ((ordered_ofPairs order pairs).nodup_keys order)
      (List.nodup_dedup _)]
    intro key
    rw [mem_keys_ofPairs_iff order, List.mem_dedup]
  rw [← hkeys.length_eq, List.length_map]

/-! ## Values that are made of others -/

theorem insert_map (make : α → β) (key : κ) (value : α) (table : List (κ × α)) :
    insert before key (make value) (table.map (Prod.map id make)) =
      (insert before key value table).map (Prod.map id make) := by
  induction table with
  | nil => rfl
  | cons first rest ih =>
    obtain ⟨k, v⟩ := first
    simp only [List.map_cons, Prod.map_apply, id_eq]
    unfold insert
    split_ifs
    · rfl
    · rw [ih]
      rfl
    · rfl

theorem ofPairs_map (make : α → β) (pairs : List (κ × α)) :
    ofPairs before (pairs.map (Prod.map id make)) =
      (ofPairs before pairs).map (Prod.map id make) := by
  induction pairs using List.reverseRecOn with
  | nil => rfl
  | append_singleton pairs last ih =>
    unfold ofPairs at ih ⊢
    rw [List.map_append, List.foldl_append, List.foldl_append, ih]
    exact insert_map make last.1 last.2 _

end CrateTrace.Keyed
