import CrateTrace.Proofs.Signature.Relinking
import Mathlib.Algebra.Group.Int.Defs
import Mathlib.Algebra.Group.Nat.Defs
import Mathlib.Data.List.TakeWhile

/-!
# Signatures byte by byte

A signature covers the instructions that start in the first 32 bytes of a function. The group at a
position is told by the byte there and by the instruction that this byte belongs to.
-/

namespace CrateTrace.Signature

open Program

/-! ## Distances -/

theorem toNat_next (i : Instruction) : i.next.toNat = (i.address.toNat + i.bytes.length) % 2 ^ 64 := by
  rw [Instruction.next, UInt64.toNat_add, UInt64.toNat_ofNat', Nat.add_mod_mod]

theorem toNat_displaced (next : UInt64) (displacement : Int) :
    ((displaced next displacement).toNat : Int) = (next.toNat + displacement) % 2 ^ 64 := by
  have hturn : ((UInt64.ofInt displacement).toNat : Int) = displacement % 2 ^ 64 := by
    rw [UInt64.ofInt, UInt64.toNat_ofNat']
    omega
  rw [displaced, UInt64.toNat_add]
  omega

/-- References that a signature is to be independent of. -/
def Qualifies (r : Reference) : Prop := r.kind = .call false ∨ r.kind = .data false

instance (r : Reference) : Decidable (Qualifies r) := inferInstanceAs (Decidable (_ ∨ _))

theorem isRelocated_eq (r : Reference) : isRelocated r = decide (Qualifies r) := by
  obtain ⟨source, target, kind⟩ := r
  cases kind with
  | call conditional => cases conditional <;> rfl
  | jump conditional => cases conditional <;> rfl
  | data stack => cases stack <;> rfl

/-- The last four bytes of an instruction are the distance from the next one to the target of its
only qualifying reference. -/
def HoldsDistance (i : Instruction) (references : List Reference) : Prop :=
  5 ≤ i.bytes.length ∧ ∃ lead a b c d only, i.bytes = lead ++ [a, b, c, d] ∧
    references.filter (Qualifies ·) = [only] ∧
    (only.target.toNat : Int) =
      (i.address.toNat + i.bytes.length + relativeDisplacement a b c d) % 2 ^ 64

theorem eq_displaced_iff (i : Instruction) (target : UInt64) (displacement : Int) :
    displaced i.next displacement = target ↔
      (target.toNat : Int) = (i.address.toNat + i.bytes.length + displacement) % 2 ^ 64 := by
  have hnumber : ((displaced i.next displacement).toNat : Int) =
      (i.address.toNat + i.bytes.length + displacement) % 2 ^ 64 := by
    rw [toNat_displaced, toNat_next]
    omega
  rw [← hnumber, ← UInt64.toNat_inj]
  omega

theorem endsInDistance_iff_holdsDistance (i : Instruction) (references : List Reference) :
    endsInDistance i references ↔ HoldsDistance i references := by
  have hfilter : references.filter isRelocated = references.filter (Qualifies ·) :=
    List.filter_congr fun r _ => isRelocated_eq r
  constructor
  · intro hends
    unfold endsInDistance at hends
    split at hends
    · rename_i only a b c d honly htail
      rw [Bool.and_eq_true, decide_eq_true_eq, beq_iff_eq, eq_displaced_iff] at hends
      obtain ⟨hlong, htarget⟩ := hends
      refine ⟨hlong, i.bytes.take (i.bytes.length - 4), a, b, c, d, only, ?_, ?_, htarget⟩
      · rw [← htail, List.take_append_drop]
      · rw [← hfilter, honly]
    · cases hends
  · rintro ⟨hlong, lead, a, b, c, d, only, hbytes, honly, htarget⟩
    have htail : i.bytes.drop (i.bytes.length - 4) = [a, b, c, d] := by
      rw [hbytes, List.length_append]
      exact List.drop_left
    rw [← hfilter] at honly
    rw [← eq_displaced_iff] at htarget
    simp [endsInDistance, honly, htail, hlong, htarget]

/-! ## Instructions -/

theorem getElem?_encode_of_holds {i : Instruction} {references : List Reference}
    (h : HoldsDistance i references) {k : Nat} (hlow : i.bytes.length - 4 ≤ k)
    (hhigh : k < i.bytes.length) : (encode i references)[k]? = some .wildcard := by
  have hlong := h.1
  rw [encode, if_pos ((endsInDistance_iff_holdsDistance i references).2 h),
    List.getElem?_append_right (by simpa using hlow)]
  refine List.getElem?_replicate_of_lt ?_
  rw [List.length_map, List.length_take]
  omega

theorem getElem?_encode_of_not {i : Instruction} {references : List Reference} {k : Nat}
    (h : ¬ (HoldsDistance i references ∧ i.bytes.length - 4 ≤ k)) (hk : k < i.bytes.length) :
    (encode i references)[k]? = (i.bytes[k]?).map .byte := by
  unfold encode
  split
  · rename_i hends
    have hlead : k < i.bytes.length - 4 := by
      have hholds := (endsInDistance_iff_holdsDistance i references).1 hends
      by_contra hlow
      exact h ⟨hholds, by omega⟩
    have hshown : k < ((i.bytes.take (i.bytes.length - 4)).map Group.byte).length := by
      rw [List.length_map, List.length_take]
      omega
    rw [List.getElem?_append_left hshown, List.getElem?_map, List.getElem?_take_of_lt hlead]
  · rw [List.getElem?_map]

/-! ## Runs of instructions -/

def bytesOf (code : List Instruction) : List UInt8 := code.flatMap (·.bytes)

theorem bytesOf_append (before after : List Instruction) :
    bytesOf (before ++ after) = bytesOf before ++ bytesOf after := List.flatMap_append

theorem bytesOf_cons (i : Instruction) (after : List Instruction) :
    bytesOf (i :: after) = i.bytes ++ bytesOf after := rfl

/-- Every byte belongs to an instruction. -/
theorem exists_instruction {code : List Instruction} {k : Nat} (h : k < (bytesOf code).length) :
    ∃ before i after j, code = before ++ i :: after ∧ k = (bytesOf before).length + j ∧
      j < i.bytes.length := by
  induction code generalizing k with
  | nil => cases h
  | cons i code ih =>
    rw [bytesOf_cons, List.length_append] at h
    by_cases hfirst : k < i.bytes.length
    · exact ⟨[], i, code, k, rfl, (Nat.zero_add k).symm, hfirst⟩
    · obtain ⟨before, i', after, j, rfl, hj, hlt⟩ := ih (k := k - i.bytes.length) (by omega)
      refine ⟨i :: before, i', after, j, rfl, ?_, hlt⟩
      rw [bytesOf_cons, List.length_append]
      omega

/-- Byte `k` of some code is one of the last four of an instruction that holds a distance there. -/
def OnDistance (view : View) (code : List Instruction) (k : Nat) : Prop :=
  ∃ before i after, code = before ++ i :: after ∧ HoldsDistance i (view.referencesFrom i) ∧
    (bytesOf before).length + (i.bytes.length - 4) ≤ k ∧
    k < (bytesOf before).length + i.bytes.length

def groupsOfCode (view : View) (code : List Instruction) : List Group :=
  groupsOfWindow (code.map fun i => (i, view.referencesFrom i))

theorem groupsOfCode_append (view : View) (before after : List Instruction) :
    groupsOfCode view (before ++ after) = groupsOfCode view before ++ groupsOfCode view after := by
  simp only [groupsOfCode, groupsOfWindow, List.map_append, List.flatMap_append]

theorem length_groupsOfCode (view : View) (code : List Instruction) :
    (groupsOfCode view code).length = (bytesOf code).length := by
  induction code with
  | nil => rfl
  | cons i code ih =>
    rw [bytesOf_cons, List.length_append, ← ih, ← length_encode i (view.referencesFrom i),
      ← List.length_append]
    rfl

/-- The groups of an instruction stand where its bytes do. -/
theorem getElem?_groupsOfCode (view : View) (before after : List Instruction) (i : Instruction)
    {j : Nat} (hj : j < i.bytes.length) :
    (groupsOfCode view (before ++ i :: after))[(bytesOf before).length + j]? =
      (encode i (view.referencesFrom i))[j]? := by
  have hfirst : groupsOfCode view (i :: after) =
      encode i (view.referencesFrom i) ++ groupsOfCode view after := rfl
  rw [groupsOfCode_append, ← length_groupsOfCode view before,
    List.getElem?_append_right (Nat.le_add_right _ _), Nat.add_sub_cancel_left, hfirst,
    List.getElem?_append_left (by rwa [length_encode])]

theorem getElem?_bytesOf (before after : List Instruction) (i : Instruction) {j : Nat}
    (hj : j < i.bytes.length) :
    (bytesOf (before ++ i :: after))[(bytesOf before).length + j]? = i.bytes[j]? := by
  rw [bytesOf_append, List.getElem?_append_right (Nat.le_add_right _ _), Nat.add_sub_cancel_left,
    bytesOf_cons, List.getElem?_append_left hj]

theorem groupsOfCode_of_onDistance {view : View} {code : List Instruction} {k : Nat}
    (h : OnDistance view code k) : (groupsOfCode view code)[k]? = some .wildcard := by
  obtain ⟨before, i, after, rfl, hholds, hlow, hhigh⟩ := h
  obtain ⟨j, rfl⟩ := Nat.exists_eq_add_of_le (Nat.le_of_add_right_le hlow)
  rw [getElem?_groupsOfCode view before after i (by omega)]
  exact getElem?_encode_of_holds hholds (by omega) (by omega)

theorem groupsOfCode_of_not_onDistance {view : View} {code : List Instruction} {k : Nat}
    (h : ¬ OnDistance view code k) :
    (groupsOfCode view code)[k]? = ((bytesOf code)[k]?).map .byte := by
  by_cases hk : k < (bytesOf code).length
  · obtain ⟨before, i, after, j, rfl, rfl, hj⟩ := exists_instruction hk
    have hoff : ¬ (HoldsDistance i (view.referencesFrom i) ∧ i.bytes.length - 4 ≤ j) := by
      rintro ⟨hholds, hlow⟩
      exact h ⟨before, i, after, rfl, hholds, by omega, by omega⟩
    rw [getElem?_groupsOfCode view before after i hj, getElem?_bytesOf before after i hj,
      getElem?_encode_of_not hoff hj]
  · have hend := length_groupsOfCode view code
    rw [List.getElem?_eq_none (by omega), List.getElem?_eq_none (by omega)]
    rfl

/-! ## Functions -/

/-- A view that answers from some code, which is in the order of addresses. -/
structure Shows (view : View) (code : List Instruction) : Prop where
  ordered : code.Pairwise fun i j => i.address ≤ j.address
  inRange : ∀ start stop, view.instructionsIn start stop =
    code.filter fun i => start ≤ i.address ∧ i.address < stop

/-- The instructions that start in the first 32 bytes behind the entry and before the end. -/
def coveredBy (code : List Instruction) (f : FunctionExtent) : List Instruction :=
  code.filter fun i =>
    f.entry.toNat ≤ i.address.toNat ∧ i.address.toNat < min f.stop.toNat (f.entry.toNat + 32)

/-- The limit does not wrap. -/
theorem toNat_windowLimit (f : FunctionExtent) :
    (windowLimit f).toNat = min f.stop.toNat (f.entry.toNat + 32) := by
  have hwindow : windowBytes.toNat = 32 := rfl
  have hstop := f.stop.toNat_lt
  unfold windowLimit
  split
  · rw [UInt64.toNat_add]
    omega
  · omega

theorem windowOf_eq {view : View} {code : List Instruction} (h : Shows view code)
    (f : FunctionExtent) : windowOf view f = coveredBy code f := by
  have hcovered : view.instructionsIn f.entry (windowLimit f) = coveredBy code f := by
    rw [h.inRange, coveredBy]
    simp only [UInt64.le_iff_toNat_le, UInt64.lt_iff_toNat_lt, toNat_windowLimit]
  rw [windowOf, hcovered, List.takeWhile_eq_self_iff]
  intro i hi
  have hrange := of_decide_eq_true (List.mem_filter.1 hi).2
  simpa [UInt64.le_iff_toNat_le, UInt64.lt_iff_toNat_lt, toNat_windowLimit] using hrange

theorem getElem?_filledUp (groups : List Group) {k : Nat} (hk : k < groupCount) :
    (filledUp (groups.take groupCount)).groups[k]? = some (groups[k]?.getD .filler) := by
  unfold filledUp
  by_cases hgroup : k < groups.length
  · have hshown : k < (groups.take groupCount).length := by
      rw [List.length_take]
      omega
    rw [List.getElem?_append_left hshown, List.getElem?_take_of_lt hk,
      List.getElem?_eq_getElem hgroup]
    rfl
  · have hshort : groups.take groupCount = groups := List.take_of_length_le (by omega)
    rw [hshort, List.getElem?_append_right (by omega),
      List.getElem?_replicate_of_lt (by omega), List.getElem?_eq_none (by omega)]
    rfl

/-- Behind the bytes that are covered stands filler, for a distance stand wildcards, and all else is
shown as it is. -/
theorem text_ofFunction_layout {view : View} {code : List Instruction} (h : Shows view code)
    (f : FunctionExtent) :
    let text := (ofFunction view f).text
    let covered := coveredBy code f
    text.length = 64 ∧ ∃ p, Pattern.ofText text = .ok p ∧ p.groups.length = 32 ∧
      ∀ k, k < 32 →
        ((bytesOf covered).length ≤ k → p.groups[k]? = some .filler) ∧
        (OnDistance view covered k → p.groups[k]? = some .wildcard) ∧
        (∀ b, (bytesOf covered)[k]? = some b → ¬ OnDistance view covered k →
          p.groups[k]? = some (.byte b)) := by
  intro text covered
  have hgroups : ofFunction view f = filledUp ((groupsOfCode view covered).take groupCount) := by
    rw [ofFunction, windowOf_eq h, ofWindow_eq]
    rfl
  have hlength : (ofFunction view f).groups.length = groupCount := length_ofWindow _
  refine ⟨?_, ofFunction view f, ofText_text hlength, hlength, fun k hk => ?_⟩
  · have hchars : text.toList = (ofFunction view f).groups.flatMap Group.text :=
      String.toList_ofList
    rw [← String.length_toList, hchars, length_text, hlength]
    rfl
  · rw [hgroups, getElem?_filledUp _ hk]
    refine ⟨fun hbehind => ?_, fun hon => ?_, fun b hb hoff => ?_⟩
    · rw [List.getElem?_eq_none (by rwa [length_groupsOfCode])]
      rfl
    · rw [groupsOfCode_of_onDistance hon]
      rfl
    · rw [groupsOfCode_of_not_onDistance hoff, hb]
      rfl

/-- A call at the end of the address space that goes to its beginning. -/
theorem text_ofFunction_layout_wrapping :
    let code : List Instruction := [⟨4096, [0xc3], "ret"⟩, ⟨0xfffffffffffffffa, [0x55], "push rbp"⟩,
      ⟨0xfffffffffffffffb, [0xe8, 0x10, 0, 0, 0], "call 0x10"⟩]
    let f : FunctionExtent := ⟨"f", 0xfffffffffffffffa, 0xffffffffffffffff⟩
    let view : View :=
      { functions := [f]
        instructionsIn := fun start stop => code.filter fun i => start ≤ i.address ∧ i.address < stop
        blocksOf := fun _ => []
        referencesFrom := fun i => if i.bytes.length = 5 then [⟨i.address, 0x10, .call false⟩] else [] }
    Shows view code ∧ OnDistance view (coveredBy code f) 2 ∧ ∃ p,
      Pattern.ofText (ofFunction view f).text = .ok p ∧ p.groups[1]? = some (.byte 0xe8) ∧
        p.groups[2]? = some .wildcard ∧ p.groups[6]? = some .filler := by
  intro code f view
  have hshows : Shows view code := ⟨by decide, fun _ _ => rfl⟩
  have hcovered : coveredBy code f = code.drop 1 := by decide
  have hon : OnDistance view (coveredBy code f) 2 := by
    refine ⟨[⟨0xfffffffffffffffa, [0x55], "push rbp"⟩], _, [], hcovered, ⟨by decide, ?_⟩,
      by decide, by decide⟩
    exact ⟨[0xe8], 0x10, 0, 0, 0, ⟨0xfffffffffffffffb, 0x10, .call false⟩, rfl, by decide, by decide⟩
  have hoff : ¬ OnDistance view (coveredBy code f) 1 := by
    intro hon
    have hgroup := groupsOfCode_of_onDistance hon
    revert hgroup
    decide +kernel
  obtain ⟨-, p, hp, -, hlayout⟩ := text_ofFunction_layout hshows f
  exact ⟨hshows, hon, p, hp, (hlayout 1 (by decide)).2.2 0xe8 (by decide +kernel) hoff,
    (hlayout 2 (by decide)).2.1 hon, (hlayout 6 (by decide)).1 (by decide +kernel)⟩

end CrateTrace.Signature
