import CrateTrace.Proofs.Store.Tables
import Mathlib.Data.List.Forall2

/-!
# Listings without errors

A listing that succeeds has one record for each of its rows, with the texts and the link of that
row.
-/

namespace CrateTrace.Store

variable {α β : Type}

theorem forall₂_of_mapM {f : α → Except StoreError β} {xs : List α} {ys : List β}
    (h : xs.mapM f = .ok ys) : List.Forall₂ (fun x y => f x = .ok y) xs ys := by
  induction xs generalizing ys with
  | nil =>
    cases h
    exact .nil
  | cons x xs ih =>
    rw [List.mapM_cons] at h
    cases hx : f x with
    | error e => simp [hx, bind, Except.bind] at h
    | ok y =>
      cases hxs : xs.mapM f with
      | error e => simp [hx, hxs, bind, Except.bind] at h
      | ok zs =>
        simp only [hx, hxs, bind, Except.bind, pure, Except.pure, Except.ok.injEq] at h
        subst h
        exact .cons hx (ih hxs)

theorem exists_of_isOk {x : Except StoreError α} (h : x.isOk = true) : ∃ a, x = .ok a := by
  cases x with
  | error e => cases h
  | ok a => exact ⟨a, rfl⟩

theorem isOk_map (x : Except StoreError α) (f : α → β) : (x.map f).isOk = x.isOk := by
  cases x <;> rfl

/-- A listing succeeds if every row can be read. -/
theorem isOk_mapM (f : α → Except StoreError β) (xs : List α) :
    (xs.mapM f).isOk = xs.all fun x => (f x).isOk := by
  induction xs with
  | nil => rfl
  | cons x xs ih =>
    rw [List.mapM_cons, List.all_cons, ← ih]
    cases f x with
    | error e => rfl
    | ok y => cases xs.mapM f <;> rfl

theorem map_filterMap_mapM_cons {γ : Type} (f : α → Except StoreError β) (make : β → Option γ)
    (x : α) (xs : List α) :
    ((x :: xs).mapM f).map (List.filterMap make) =
      ((f x).map make).bind fun made =>
        ((xs.mapM f).map (List.filterMap make)).map (made.toList ++ ·) := by
  rw [List.mapM_cons]
  cases f x with
  | error e => rfl
  | ok y =>
    cases xs.mapM f with
    | error e => rfl
    | ok ys => cases hmade : make y <;> simp [bind, Except.bind, pure, Except.pure, Except.map, hmade]

/-- What is made of the records does not change if it does not for any row, whether or not the
rows can be read. -/
theorem map_filterMap_mapM {γ : Type} {f : α → Except StoreError β} {g : α → α}
    {make : β → Option γ} {xs : List α}
    (h : ∀ x ∈ xs, (f (g x)).map make = (f x).map make) :
    ((xs.map g).mapM f).map (List.filterMap make) = (xs.mapM f).map (List.filterMap make) := by
  induction xs with
  | nil => rfl
  | cons x xs ih =>
    rw [List.forall_mem_cons] at h
    rw [List.map_cons, map_filterMap_mapM_cons, map_filterMap_mapM_cons, h.1, ih h.2]

theorem Row.mapM_ok {f : α → Except StoreError β} {r : Row α} {r' : Row β}
    (h : Row.mapM f r = .ok r') : r'.id = r.id ∧ f r.value = .ok r'.value := by
  unfold Row.mapM at h
  split at h
  · cases h
  · cases h
    exact ⟨rfl, by assumption⟩

/-- What is made of the records is what is made of their rows. -/
theorem filterMap_eq_of_forall₂ {γ δ : Type} {rel : γ → δ → Prop} {rows : List γ} {records : List δ}
    {g : γ → Option β} {f : δ → Option β} (hrel : List.Forall₂ rel rows records)
    (h : ∀ r r', rel r r' → f r' = g r) : records.filterMap f = rows.filterMap g := by
  induction hrel with
  | nil => rfl
  | cons hr _ ih => rw [List.filterMap_cons, List.filterMap_cons, h _ _ hr, ih]

theorem map_eq_of_forall₂ {γ δ : Type} {rel : γ → δ → Prop} {rows : List γ} {records : List δ}
    {g : γ → β} {f : δ → β} (hrel : List.Forall₂ rel rows records)
    (h : ∀ r r', rel r r' → f r' = g r) : records.map f = rows.map g := by
  rw [← List.filterMap_eq_map, ← List.filterMap_eq_map]
  exact filterMap_eq_of_forall₂ hrel fun r r' hr => congrArg some (h r r' hr)

/-! ## Functions -/

theorem FunctionColumns.function_fullName {c : FunctionColumns} {f : Function}
    (h : c.function = .ok f) : f.fullName = c.fullName := by
  unfold FunctionColumns.function at h
  repeat' split at h
  all_goals cases h
  rfl

theorem SourceColumns.function_ok {c : SourceColumns} {f : SourceFunction}
    (h : c.function = .ok f) : f.fullName = c.fullName ∧ f.signature = c.signature := by
  unfold SourceColumns.function at h
  split at h
  · cases h
  · rename_i hf
    cases h
    exact ⟨FunctionColumns.function_fullName hf, rfl⟩

theorem BinaryColumns.function_ok {c : BinaryColumns} {f : BinaryFunction}
    (h : c.function = .ok f) : f.fullName = c.fullName ∧ f.signature = c.signature := by
  unfold BinaryColumns.function at h
  split at h
  · cases h
  · rename_i hf
    cases h
    exact ⟨FunctionColumns.function_fullName hf, rfl⟩

theorem FunctionColumns.function_ofFunction (f : Function) :
    (FunctionColumns.ofFunction f).function = .ok f := by
  let k := KindColumns.ofKind f.kind
  have hcode : (Cell.integer k.code).code kindIndex "kind" = .ok k.code := by
    dsimp only [k]
    cases f.kind <;> rfl
  have hkind : KindColumns.kind? ⟨k.code, k.path, k.implType, k.implTrait⟩ = some f.kind :=
    KindColumns.kind_ofKind f.kind
  have hstatus : (Cell.integer f.status.code).code statusIndex "status" = .ok f.status.code := by
    cases f.status <;> rfl
  unfold FunctionColumns.function FunctionColumns.ofFunction
  simp only [hcode, hkind, hstatus, Status.ofCode_code, k]

theorem SourceColumns.function_of_record {c : SourceColumns} {f : Function}
    (h : c.toFunctionColumns = .ofFunction f) :
    c.function = .ok { f with
      version := c.version
      signature := c.signature
      matched := c.matched } := by
  unfold SourceColumns.function
  rw [h, FunctionColumns.function_ofFunction]

theorem BinaryColumns.function_of_record {c : BinaryColumns} {f : Function}
    (h : c.toFunctionColumns = .ofFunction f) :
    c.function = .ok { f with
      binary := c.binary
      address := c.address
      signature := c.signature
      matchedSource := c.matchedSource } := by
  unfold BinaryColumns.function
  rw [h, FunctionColumns.function_ofFunction]

theorem FunctionColumns.hasStatus_ofFunction (f : Function) (status : Status) :
    (FunctionColumns.ofFunction f).hasStatus status = decide (f.status = status) := by
  unfold FunctionColumns.hasStatus FunctionColumns.ofFunction
  cases f.status <;> cases status <;> rfl

/-- What is written is read back. -/
theorem SourceColumns.function_ofFunction (crateId : RowId) (f : SourceFunction) :
    (SourceColumns.ofFunction crateId f).function = .ok f :=
  SourceColumns.function_of_record rfl

theorem BinaryColumns.function_ofFunction (binaryId : RowId) (f : BinaryFunction) :
    (BinaryColumns.ofFunction binaryId f).function = .ok f :=
  BinaryColumns.function_of_record rfl

/-- What candidates and probes are made of. -/
theorem sourcesOf_ok {rows : List (Row SourceColumns)} {fs : List (Row SourceFunction)}
    (h : sourcesOf rows = .ok fs) :
    List.Forall₂ (fun r f => f.id = r.id ∧ f.value.fullName = r.value.fullName ∧
      f.value.signature = r.value.signature) rows fs :=
  (forall₂_of_mapM h).imp fun _ _ hr =>
    ⟨(Row.mapM_ok hr).1, SourceColumns.function_ok (Row.mapM_ok hr).2⟩

theorem functionsOf_ok {rows : List (Row BinaryColumns)} {fs : List (Row BinaryFunction)}
    (h : functionsOf rows = .ok fs) :
    List.Forall₂ (fun r f => f.id = r.id ∧ f.value.fullName = r.value.fullName ∧
      f.value.signature = r.value.signature) rows fs :=
  (forall₂_of_mapM h).imp fun _ _ hr =>
    ⟨(Row.mapM_ok hr).1, BinaryColumns.function_ok (Row.mapM_ok hr).2⟩

end CrateTrace.Store
