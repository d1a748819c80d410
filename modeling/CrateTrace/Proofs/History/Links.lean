import CrateTrace.Proofs.History.Ownership

/-!
# The life of a link

A link is made by a pass and lasts until its source function is replaced. Meanwhile the source
function stays what it was, as no number is given twice.
-/

namespace CrateTrace

open Ingest Mangling Matching Program

namespace Store

/-- A source function may get another signature or mark. -/
def SourceColumns.Same (r r' : SourceColumns) : Prop :=
  ∃ signature matched, r' = { r with signature, matched }

/-- A function of a binary may get another link. -/
def BinaryColumns.Same (f f' : BinaryColumns) : Prop := ∃ target, f' = f.relink target

theorem SourceColumns.Same.refl (r : SourceColumns) : r.Same r := ⟨r.signature, r.matched, rfl⟩

theorem SourceColumns.Same.trans (r r' r'' : SourceColumns) (h : r.Same r') (h' : r'.Same r'') :
    r.Same r'' := by
  obtain ⟨_, _, rfl⟩ := h
  obtain ⟨signature, matched, rfl⟩ := h'
  exact ⟨signature, matched, rfl⟩

theorem SourceColumns.same_mark (r : SourceColumns) (matched : Bool) : r.Same (r.mark matched) :=
  ⟨r.signature, matched, rfl⟩

theorem SourceColumns.same_of_signed {r r' : SourceColumns} (h : Signed r r') : r.Same r' := by
  rcases h with rfl | ⟨signature, -, rfl⟩
  · exact .refl r'
  · exact ⟨some signature, r.matched, rfl⟩

theorem BinaryColumns.Same.refl (f : BinaryColumns) : f.Same f := ⟨f.matchedSource, rfl⟩

theorem BinaryColumns.Same.trans (f f' f'' : BinaryColumns) (h : f.Same f') (h' : f'.Same f'') :
    f.Same f'' := by
  obtain ⟨_, rfl⟩ := h
  obtain ⟨target, rfl⟩ := h'
  exact ⟨target, rfl⟩

structure Keeps (s s' : Store) : Prop where
  sources : s.sources.Keeps SourceColumns.Same s'.sources
  functions : s.functions.Keeps BinaryColumns.Same s'.functions

theorem Keeps.refl (s : Store) : s.Keeps s :=
  ⟨.refl SourceColumns.Same.refl _, .refl BinaryColumns.Same.refl _⟩

theorem Keeps.trans {s s' s'' : Store} (h : s.Keeps s') (h' : s'.Keeps s'') : s.Keeps s'' :=
  ⟨h.sources.trans SourceColumns.Same.trans h'.sources,
    h.functions.trans BinaryColumns.Same.trans h'.functions⟩

end Store

namespace History

open Store

variable {demangler : Demangler}

/-! ## Rows -/

theorem Effect.keeps {s s' : Store} {call : Call} (effect : Effect demangler s call s') :
    s.Keeps s' := by
  have hsources := (Keeps.refl s).sources
  have hfunctions := (Keeps.refl s).functions
  cases effect with
  | nothing => exact .refl s
  | unitAdded unknown => exact ⟨hsources.insertAll _, hfunctions⟩
  | unitReplaced known =>
    exact ⟨(hsources.filter _).insertAll _, .modify (fun r => ⟨_, rfl⟩) s.functions⟩
  | binaryAdded unknown => exact ⟨hsources, hfunctions.insertAll _⟩
  | binaryReplaced known =>
    exact ⟨.modify (fun r => r.value.same_mark _) s.sources, (hfunctions.filter _).insertAll _⟩
  | signed signs => exact ⟨.modify (fun r => SourceColumns.same_of_signed (signs r)) s.sources,
      hfunctions⟩
  | linked committed =>
    exact ⟨.modify (fun r => r.value.same_mark _) s.sources,
      .modify (fun r => ⟨_, rfl⟩) s.functions⟩
  | noted run => exact ⟨hsources, hfunctions⟩

theorem keeps_foldl (s : Store) (calls : List Call) :
    s.Keeps (calls.foldl (Call.run demangler) s) := by
  induction calls generalizing s with
  | nil => exact .refl s
  | cons call calls ih => exact (effect_run s call).keeps.trans (ih _)

theorem after_append (calls more : List Call) :
    after demangler (calls ++ more) = more.foldl (Call.run demangler) (after demangler calls) :=
  List.foldl_append

theorem keeps_after (calls more : List Call) :
    (after demangler calls).Keeps (after demangler (calls ++ more)) := by
  rw [after_append]
  exact keeps_foldl (after demangler calls) more

/-! ## Links -/

/-- How the link of a function may change: a pass for its crate that succeeds makes one to a source
function of a crate version that it is asked for, and a dump of the crate version of that, taken in
once more by force, clears it. -/
inductive LinkChange (s : Store) (f : BinaryColumns) : Call → Option RowId → Option RowId → Prop where
  | made {request : Request} {policy : Policy} {times : Times} {summary : Summary}
    {source : Row SourceColumns} (committed : (pass s request policy times).1 = .ok summary)
    (crate : f.crate = request.unit.name) (there : source ∈ s.sources.rows)
    (asked : source.value.unit ∈ request.unit :: request.extra) :
    LinkChange s f (.pass request policy times) none (some source.id)
  | cleared {unit : CrateVersion} {entries : List Entry} {row : Row CrateVersion}
    {source : Row SourceColumns} (known : row ∈ s.crates.rows ∧ row.value = unit)
    (there : source ∈ s.sources.rows) (replaced : source.value.unit = unit) :
    LinkChange s f (.ingestSources unit entries true) (some source.id) none

theorem relinked_row {t : Table BinaryColumns} {target : Row BinaryColumns → Option RowId}
    {f f' : Row BinaryColumns} (hf : f ∈ t.rows)
    (hf' : f' ∈ (t.modify fun r => r.value.relink (target r)).rows) (hid : f.id = f'.id) :
    f'.value.matchedSource = target f := by
  obtain ⟨found, hfound, rfl⟩ := List.mem_map.1 hf'
  obtain rfl := t.eq_of_id_eq hf hfound hid
  rfl

theorem Effect.link_change {s s' : Store} {call : Call} (effect : Effect demangler s call s')
    (howned : s.Owned) (h : s.Consistent) {f f' : Row BinaryColumns} (hf : f ∈ s.functions.rows)
    (hf' : f' ∈ s'.functions.rows) (hid : f.id = f'.id) :
    f'.value.matchedSource = f.value.matchedSource ∨
      LinkChange s f.value call f.value.matchedSource f'.value.matchedSource := by
  have hkept : s.functions.Keeps Eq s.functions := .refl (fun _ => rfl) _
  have hequal : s.functions.Keeps Eq s'.functions →
      f'.value.matchedSource = f.value.matchedSource := fun hkeeps =>
    congrArg BinaryColumns.matchedSource (hkeeps.same_of_id_eq hf hf' hid).symm
  cases effect with
  | nothing | unitAdded | signed | noted => exact .inl (hequal hkept)
  | binaryAdded => exact .inl (hequal (hkept.insertAll _))
  | binaryReplaced => exact .inl (hequal ((hkept.filter _).insertAll _))
  | @unitReplaced unit entries row known =>
    have hlink : f'.value.matchedSource =
        f.value.matchedSource.filter fun id => !(s.sourceIds row.id).contains id :=
      relinked_row hf hf' hid
    rw [hlink]
    cases hold : f.value.matchedSource with
    | none => exact .inl rfl
    | some id =>
      obtain ⟨source, hsource, rfl⟩ := Table.contains_iff.1 (h.targets f hf id hold)
      -- The rows that go are told by number, the crate version of the source function by name.
      rw [Option.filter_some, contains_sourceIds hsource]
      by_cases hcrate : source.value.crateId = row.id
      · have hunit : source.value.unit = unit := (howned.crateId_eq_iff known hsource).1 hcrate
        right
        rw [hcrate, beq_self_eq_true]
        exact .cleared (findCrate?_some known) hsource hunit
      · left
        rw [beq_eq_false_iff_ne.2 hcrate]
        rfl
  | @linked request policy times summary committed =>
    have hlink : f'.value.matchedSource = target s request policy f.value :=
      relinked_row hf hf' hid
    rw [hlink]
    by_cases hpending : isPending request.unit.name f.value
    · have hcrate : f.value.crate = request.unit.name := by simp_all [isPending]
      have hfree : f.value.matchedSource = none := by simp_all [isPending]
      rw [target, if_pos hpending, hfree]
      cases hverdict : (verdict s request policy f.value).bind Correlation.Outcome.source? with
      | none => exact .inl rfl
      | some id =>
        obtain ⟨source, hsource, rfl, hasked⟩ := named_of_verdict hverdict
        exact .inr (.made committed hcrate hsource hasked)
    · exact .inl (if_neg hpending)

theorem matchedSource_of_added {t : Table BinaryColumns} {wants : String → Bool} {binary : String}
    {dump : Dump} {binaryId : RowId} {f' : Row BinaryColumns}
    (hf' : f' ∈
      (t.insertAll ((functionsOfDump demangler wants binary dump).map (.ofFunction binaryId))).rows)
    (hnew : f' ∉ t.rows) : f'.value.matchedSource = none := by
  obtain ⟨added, hrows, hvalues, -⟩ :=
    t.rows_insertAll ((functionsOfDump demangler wants binary dump).map (.ofFunction binaryId))
  rw [hrows] at hf'
  have hadded : f' ∈ added := (List.mem_append.1 hf').resolve_left hnew
  have hvalue := List.mem_map_of_mem (f := Row.value) hadded
  rw [hvalues] at hvalue
  obtain ⟨f, hf, heq⟩ := List.mem_map.1 hvalue
  rw [← heq]
  exact (of_mem_functionsOfDump hf).2

/-- A new function has no link. -/
theorem Effect.unlinked_of_new {s s' : Store} {call : Call} (effect : Effect demangler s call s')
    {f' : Row BinaryColumns} (hf' : f' ∈ s'.functions.rows)
    (hnew : ∀ f ∈ s.functions.rows, f.id ≠ f'.id) : f'.value.matchedSource = none := by
  have hnot : f' ∉ s.functions.rows := fun hf => hnew f' hf rfl
  cases effect with
  | nothing | unitAdded | signed | noted => exact absurd hf' hnot
  | unitReplaced | linked =>
    obtain ⟨f, hf, rfl⟩ := List.mem_map.1 hf'
    exact absurd rfl (hnew f hf)
  | binaryAdded => exact matchedSource_of_added hf' hnot
  | binaryReplaced =>
    exact matchedSource_of_added hf' fun hf => hnot (List.mem_filter.1 hf).1

theorem LinkChange.eq_of_some {s : Store} {f : BinaryColumns} {call : Call}
    {old new : Option RowId} (h : LinkChange s f call old new) {a b : RowId} (ha : old = some a)
    (hb : new = some b) : a = b := by
  cases h with
  | made => cases ha
  | cleared => cases hb

/-- The source function that a link leads to is there, and it is the same as long as the link is. -/
theorem linked_source {s t : Store} (hkeeps : s.Keeps t) (hs : s.Consistent) (ht : t.Consistent)
    {f f' : Row BinaryColumns} (hf : f ∈ s.functions.rows) (hf' : f' ∈ t.functions.rows) {id : RowId}
    (hlink : f.value.matchedSource = some id) (hlink' : f'.value.matchedSource = some id) :
    ∃ source ∈ s.sources.rows, ∃ source' ∈ t.sources.rows, source.id = id ∧ source'.id = id ∧
      source'.value.unit = source.value.unit ∧
      source'.value.toFunctionColumns = source.value.toFunctionColumns := by
  obtain ⟨source, hsource, hid⟩ := Table.contains_iff.1 (hs.targets f hf id hlink)
  obtain ⟨source', hsource', hid'⟩ := Table.contains_iff.1 (ht.targets f' hf' id hlink')
  obtain ⟨signature, matched, hsame⟩ :=
    hkeeps.sources.same_of_id_eq hsource hsource' (hid.trans hid'.symm)
  refine ⟨source, hsource, source', hsource', hid, hid', ?_, ?_⟩
  · rw [hsame]
    rfl
  · rw [hsame]

/-- Link by link: what a call may do to it, that new functions have none, that it is never led
elsewhere, that numbers are never given again, and that its source function stays what it was. -/
theorem links_come_and_go (demangler : Demangler) (calls : List Call) (call : Call) (more : List Call) :
    let s := after demangler calls
    let s' := after demangler (calls ++ [call])
    let t := after demangler (calls ++ more)
    (∀ f ∈ s.functions.rows, ∀ f' ∈ s'.functions.rows, f.id = f'.id →
      f'.value.matchedSource = f.value.matchedSource ∨
        LinkChange s f.value call f.value.matchedSource f'.value.matchedSource) ∧
    (∀ f' ∈ s'.functions.rows, (∀ f ∈ s.functions.rows, f.id ≠ f'.id) →
      f'.value.matchedSource = none) ∧
    (∀ f ∈ s.functions.rows, ∀ f' ∈ s'.functions.rows, f.id = f'.id → ∀ a b,
      f.value.matchedSource = some a → f'.value.matchedSource = some b → a = b) ∧
    s.Keeps t ∧
    (∀ f ∈ s.functions.rows, ∀ f' ∈ t.functions.rows, f.id = f'.id → ∀ id,
      f.value.matchedSource = some id → f'.value.matchedSource = some id →
      ∃ source ∈ s.sources.rows, ∃ source' ∈ t.sources.rows, source.id = id ∧ source'.id = id ∧
        source'.value.unit = source.value.unit ∧
        source'.value.toFunctionColumns = source.value.toFunctionColumns) := by
  intro s s' t
  have heffect : Effect demangler s call s' := by
    have hrun : s' = call.run demangler s := after_append calls [call]
    rw [hrun]
    exact effect_run s call
  have hchange : ∀ f ∈ s.functions.rows, ∀ f' ∈ s'.functions.rows, f.id = f'.id →
      f'.value.matchedSource = f.value.matchedSource ∨
        LinkChange s f.value call f.value.matchedSource f'.value.matchedSource :=
    fun f hf f' hf' hid =>
      heffect.link_change (owned_after calls) (consistent_after calls) hf hf' hid
  refine ⟨hchange, fun f' hf' hnew => heffect.unlinked_of_new hf' hnew, ?_, keeps_after calls more,
    ?_⟩
  · intro f hf f' hf' hid a b ha hb
    rcases hchange f hf f' hf' hid with hsame | hchanged
    · rw [hsame, ha] at hb
      exact Option.some.inj hb
    · exact hchanged.eq_of_some ha hb
  · intro f hf f' hf' _ id hlink hlink'
    exact linked_source (keeps_after calls more) (consistent_after calls)
      (consistent_after (calls ++ more)) hf hf' hlink hlink'

end History

end CrateTrace
