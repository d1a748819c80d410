import CrateTrace.Proofs.Signature.Layout

/-!
# Signatures of rebased programs

A program that is loaded elsewhere has all its addresses moved by one offset. Distances stay as they
are, so its functions keep their signatures, at the ends of the address space too.
-/

namespace CrateTrace.Program

/-! ## Offsets -/

/-- Addresses wrap around. -/
def moved (offset : Int) (address : UInt64) : UInt64 := address + UInt64.ofInt offset

def Instruction.moved (offset : Int) (i : Instruction) : Instruction :=
  { i with address := Program.moved offset i.address }

def Reference.moved (offset : Int) (r : Reference) : Reference :=
  { r with source := Program.moved offset r.source, target := Program.moved offset r.target }

def FunctionExtent.moved (offset : Int) (f : FunctionExtent) : FunctionExtent :=
  { f with entry := Program.moved offset f.entry, stop := Program.moved offset f.stop }

/-- The offset does not bring an address out of the address space. -/
def Stays (offset : Int) (address : UInt64) : Prop :=
  0 ≤ address.toNat + offset ∧ address.toNat + offset < 2 ^ 64

instance (offset : Int) (address : UInt64) : Decidable (Stays offset address) :=
  inferInstanceAs (Decidable (_ ∧ _))

variable {offset : Int} {f : FunctionExtent}

theorem toNat_moved (offset : Int) (address : UInt64) :
    ((moved offset address).toNat : Int) = (address.toNat + offset) % 2 ^ 64 :=
  Signature.toNat_displaced address offset

theorem moved_inj {address address' : UInt64} :
    moved offset address = moved offset address' ↔ address = address' :=
  UInt64.add_left_inj _

/-- Every address is one that was moved. -/
theorem exists_moved (offset : Int) (address : UInt64) : ∃ before, moved offset before = address :=
  ⟨address - UInt64.ofInt offset, UInt64.sub_add_cancel _ _⟩

theorem moved_add (offset : Int) (address n : UInt64) :
    moved offset (address + n) = moved offset address + n := by
  unfold moved
  rw [UInt64.add_assoc, UInt64.add_assoc, UInt64.add_comm n]

theorem Stays.toNat_moved {address : UInt64} (h : Stays offset address) :
    ((moved offset address).toNat : Int) = address.toNat + offset := by
  obtain ⟨hlow, hhigh⟩ := h
  rw [Program.toNat_moved]
  omega

theorem next_moved (offset : Int) (i : Instruction) :
    (i.moved offset).next = moved offset i.next :=
  (moved_add offset i.address _).symm

end CrateTrace.Program

namespace CrateTrace.Signature

open Program

/-- A view that shows a program elsewhere: at each address what the other shows at the address
before the move. -/
structure Rebased (offset : Int) (view view' : View) (code code' : List Instruction) : Prop where
  instructions : ∀ address, code'.filter (·.address = moved offset address) =
    (code.filter (·.address = address)).map (·.moved offset)
  references : ∀ i ∈ code,
    view'.referencesFrom (i.moved offset) = (view.referencesFrom i).map (·.moved offset)

variable {view view' : View} {code code' : List Instruction} {offset : Int} {f : FunctionExtent}

/-! ## Instructions -/

theorem displaced_moved (offset : Int) (next : UInt64) (displacement : Int) :
    displaced (moved offset next) displacement = moved offset (displaced next displacement) :=
  (moved_add offset next _).symm

theorem endsInDistance_moved (offset : Int) (i : Instruction) (references : List Reference) :
    endsInDistance (i.moved offset) (references.map (·.moved offset)) =
      endsInDistance i references := by
  have hfilter : (references.map (·.moved offset)).filter isRelocated =
      (references.filter isRelocated).map (·.moved offset) := by
    rw [List.filter_map]
    rfl
  have hbytes : (i.moved offset).bytes = i.bytes := rfl
  unfold endsInDistance
  rw [hfilter, hbytes, next_moved]
  cases references.filter isRelocated with
  | nil => rfl
  | cons only more =>
    cases more with
    | cons other more => rfl
    | nil =>
      simp only [List.map_cons, List.map_nil]
      split
      · rename_i honly htail
        cases honly
        simp only [htail, displaced_moved]
        congr 1
        rw [Bool.eq_iff_iff, beq_iff_eq, beq_iff_eq]
        exact moved_inj
      · rename_i hother
        split
        · rename_i honly htail
          cases honly
          exact absurd htail (hother _ _ _ _ _ rfl)
        · rfl

theorem encode_moved (offset : Int) (i : Instruction) (references : List Reference) :
    encode (i.moved offset) (references.map (·.moved offset)) = encode i references := by
  unfold encode
  rw [endsInDistance_moved]
  rfl

/-! ## Code in the order of addresses -/

theorem filter_moved (offset : Int) (code : List Instruction) (address : UInt64) :
    (code.map (·.moved offset)).filter (·.address = moved offset address) =
      (code.filter (·.address = address)).map (·.moved offset) := by
  rw [List.filter_map]
  simp only [Function.comp_def, Instruction.moved, moved_inj]

theorem mem_iff_of_same_at (hsame : ∀ address,
    code.filter (·.address = address) = code'.filter (·.address = address)) (i : Instruction) :
    i ∈ code ↔ i ∈ code' := by
  have hat : i ∈ code.filter (·.address = i.address) ↔ i ∈ code'.filter (·.address = i.address) :=
    hsame i.address ▸ Iff.rfl
  simpa using hat

theorem head_le {i j : Instruction}
    (h : (i :: code).Pairwise fun i j => i.address ≤ j.address) (hj : j ∈ i :: code) :
    i.address ≤ j.address := by
  rcases List.mem_cons.1 hj with rfl | hj
  · exact UInt64.le_refl _
  · exact List.rel_of_pairwise_cons h hj

/-- In the order of addresses, code is told by what it has at each address. -/
theorem eq_of_same_at (h : code.Pairwise fun i j => i.address ≤ j.address)
    (h' : code'.Pairwise fun i j => i.address ≤ j.address)
    (hsame : ∀ address,
      code.filter (·.address = address) = code'.filter (·.address = address)) : code = code' := by
  have hmem := mem_iff_of_same_at hsame
  induction code generalizing code' with
  | nil => exact (List.eq_nil_iff_forall_not_mem.2 fun i hi => by simpa using (hmem i).2 hi).symm
  | cons i code ih =>
    cases code' with
    | nil => simpa using (hmem i).1 List.mem_cons_self
    | cons j code' =>
      -- Of the two that come first neither is at a higher address.
      have hle : i.address ≤ j.address := head_le h ((hmem j).2 List.mem_cons_self)
      have hge : j.address ≤ i.address := head_le h' ((hmem i).1 List.mem_cons_self)
      have hfirst := hsame i.address
      simp only [List.filter_cons, UInt64.le_antisymm hge hle, decide_true, if_true,
        List.cons.injEq] at hfirst
      obtain ⟨rfl, -⟩ := hfirst
      have hrest : ∀ address,
          code.filter (·.address = address) = code'.filter (·.address = address) := by
        intro address
        have hat := hsame address
        simp only [List.filter_cons] at hat
        split at hat
        · exact (List.cons.inj hat).2
        · exact hat
      rw [ih h.of_cons h'.of_cons hrest (mem_iff_of_same_at hrest)]

/-! ## Functions -/

/-- An instruction at `address` is in a signature. -/
def Covers (f : FunctionExtent) (address : UInt64) : Prop :=
  f.entry.toNat ≤ address.toNat ∧ address.toNat < min f.stop.toNat (f.entry.toNat + 32)

instance (f : FunctionExtent) (address : UInt64) : Decidable (Covers f address) :=
  inferInstanceAs (Decidable (_ ∧ _))

theorem coveredBy_eq (code : List Instruction) (f : FunctionExtent) :
    coveredBy code f = code.filter (Covers f ·.address) := rfl

theorem Covers.stays {address : UInt64} (h : Covers f address) (hentry : Stays offset f.entry)
    (hstop : Stays offset f.stop) : Stays offset address := by
  obtain ⟨hlow, hhigh⟩ := h
  obtain ⟨hentry, -⟩ := hentry
  obtain ⟨-, hstop⟩ := hstop
  exact ⟨by omega, by omega⟩

/-- No address wraps into a function that does not. -/
theorem covers_moved (hentry : Stays offset f.entry) (hstop : Stays offset f.stop)
    (address : UInt64) : Covers (f.moved offset) (moved offset address) ↔ Covers f address := by
  have haddress := toNat_moved offset address
  have hlt := address.toNat_lt
  have hstopLt := f.stop.toNat_lt
  have hentry' : ((f.moved offset).entry.toNat : Int) = _ := hentry.toNat_moved
  have hstop' : ((f.moved offset).stop.toNat : Int) = _ := hstop.toNat_moved
  obtain ⟨hentry, -⟩ := hentry
  obtain ⟨-, hstop⟩ := hstop
  unfold Covers
  omega

theorem coveredBy_moved (h : Shows view code) (h' : Shows view' code')
    (hmoved : Rebased offset view view' code code') (hentry : Stays offset f.entry)
    (hstop : Stays offset f.stop) :
    coveredBy code' (f.moved offset) = (coveredBy code f).map (·.moved offset) := by
  refine eq_of_same_at (h'.ordered.filter _) ?_ fun address => ?_
  · refine List.pairwise_map.2 ((h.ordered.filter _).imp_of_mem fun {i j} hi hj hle => ?_)
    have hi : Covers f i.address := of_decide_eq_true (List.mem_filter.1 hi).2
    have hj : Covers f j.address := of_decide_eq_true (List.mem_filter.1 hj).2
    have hi := (hi.stays hentry hstop).toNat_moved
    have hj := (hj.stays hentry hstop).toNat_moved
    rw [UInt64.le_iff_toNat_le] at hle ⊢
    simp only [Instruction.moved]
    omega
  · obtain ⟨before, rfl⟩ := exists_moved offset address
    calc (coveredBy code' (f.moved offset)).filter (·.address = moved offset before)
      _ = (code'.filter (·.address = moved offset before)).filter
          (Covers (f.moved offset) ·.address) := List.filter_comm ..
      _ = ((code.filter (·.address = before)).filter (Covers f ·.address)).map
          (·.moved offset) := by
        rw [hmoved.instructions, List.filter_map]
        simp only [Function.comp_def, Instruction.moved, covers_moved hentry hstop]
      _ = ((coveredBy code f).filter (·.address = before)).map (·.moved offset) := by
        rw [coveredBy_eq, List.filter_comm]
      _ = ((coveredBy code f).map (·.moved offset)).filter (·.address = moved offset before) := by
        rw [filter_moved]

theorem groupsOfCode_moved (hmoved : Rebased offset view view' code code')
    {covered : List Instruction} (hcovered : ∀ i ∈ covered, i ∈ code) :
    groupsOfCode view' (covered.map (·.moved offset)) = groupsOfCode view covered := by
  unfold groupsOfCode groupsOfWindow
  rw [List.map_map, List.flatMap_map, List.flatMap_map]
  refine List.flatMap_congr fun i hi => ?_
  simp only [Function.comp_apply, hmoved.references i (hcovered i hi), encode_moved]

/-- A function has the same signature wherever its program is loaded. -/
theorem text_ofFunction_moved (h : Shows view code) (h' : Shows view' code')
    (hmoved : Rebased offset view view' code code') (hentry : Stays offset f.entry)
    (hstop : Stays offset f.stop) :
    (ofFunction view' (f.moved offset)).text = (ofFunction view f).text := by
  have hgroups : groupsOfCode view' ((coveredBy code f).map (·.moved offset)) =
      groupsOfCode view (coveredBy code f) :=
    groupsOfCode_moved hmoved fun i hi => (List.mem_filter.1 hi).1
  rw [← coveredBy_moved h h' hmoved hentry hstop] at hgroups
  unfold groupsOfCode at hgroups
  unfold ofFunction
  rw [windowOf_eq h, windowOf_eq h', ofWindow_eq, ofWindow_eq, hgroups]

/-- A function that is moved to the end of the address space, from where it calls what is moved to
the beginning. -/
theorem text_ofFunction_moved_wrapping :
    let push : Instruction := ⟨0x1000, [0x55], "push rbp"⟩
    let call : Instruction := ⟨0x1001, [0xe8, 0xfa, 0x0f, 0, 0], "call 0x2000"⟩
    let ret : Instruction := ⟨0x2000, [0xc3], "ret"⟩
    let f : FunctionExtent := ⟨"f", 0x1000, 0x1006⟩
    let offset : Int := 0xffffffffffffeff9
    let viewOf (code : List Instruction) (target : UInt64) : View :=
      { functions := []
        instructionsIn := fun start stop =>
          code.filter fun i => start ≤ i.address ∧ i.address < stop
        blocksOf := fun _ => []
        referencesFrom := fun i =>
          if i.bytes.length = 5 then [⟨i.address, target, .call false⟩] else [] }
    let code := [push, call, ret]
    let code' := [ret.moved offset, push.moved offset, call.moved offset]
    let view := viewOf code 0x2000
    let view' := viewOf code' 0xff9
    Shows view code ∧ Shows view' code' ∧ Rebased offset view view' code code' ∧
      Stays offset f.entry ∧ Stays offset f.stop ∧ (f.moved offset).stop = 0xffffffffffffffff ∧
      OnDistance view (coveredBy code f) 2 ∧
      (ofFunction view' (f.moved offset)).text = (ofFunction view f).text := by
  intro push call ret f offset viewOf code code' view view'
  have hshows : Shows view code := ⟨by decide, fun _ _ => rfl⟩
  have hshows' : Shows view' code' := ⟨by decide, fun _ _ => rfl⟩
  have hmoved : Rebased offset view view' code code' := by
    refine ⟨fun address => ?_, by decide⟩
    have hsame : [ret, push, call].filter (·.address = address) =
        code.filter (·.address = address) := by
      by_cases hret : ret.address = address
      · subst hret
        decide
      · simp [code, List.filter_cons, hret]
    rw [← hsame]
    exact filter_moved offset [ret, push, call] address
  have hon : OnDistance view (coveredBy code f) 2 := by
    refine ⟨[push], call, [], by decide, ⟨by decide, ?_⟩, by decide, by decide⟩
    exact ⟨[0xe8], 0xfa, 0x0f, 0, 0, ⟨0x1001, 0x2000, .call false⟩, rfl, by decide, by decide⟩
  have hentry : Stays offset f.entry := by decide
  have hstop : Stays offset f.stop := by decide
  exact ⟨hshows, hshows', hmoved, hentry, hstop, by decide, hon,
    text_ofFunction_moved hshows hshows' hmoved hentry hstop⟩

end CrateTrace.Signature
