import CrateTrace.Proofs.Signature.Relinking
import Mathlib.Data.Nat.Find

/-!
# Agreement by positions

How far two signatures agree depends on the positions before the first that is a filler in one of
them, or that one of them lacks. It is no matter which signature comes first, and the signature of a
function agrees with itself as far as it is known.
-/

namespace CrateTrace.Signature

open Program

/-! ## Positions -/

def Group.value? : Group → Option UInt8
  | .byte value => some value
  | _ => none

def known? (groups : List Group) (k : Nat) : Option UInt8 := groups[k]?.bind Group.value?

def Ends (groups : List Group) (k : Nat) : Prop :=
  groups[k]? = none ∨ groups[k]? = some .filler

/-- The first position where one of two signatures ends. -/
structure FirstEnd (a b : List Group) (m : Nat) : Prop where
  ends : Ends a m ∨ Ends b m
  first : ∀ k < m, ¬ Ends a k ∧ ¬ Ends b k

def Clash (a b : List Group) (k : Nat) : Prop :=
  ∃ x y, known? a k = some x ∧ known? b k = some y ∧ x ≠ y

def SameByte (a b : List Group) (k : Nat) : Prop :=
  ∃ x, known? a k = some x ∧ known? b k = some x

variable {a b : List Group} {k m : Nat}

theorem clash_iff :
    Clash a b k ↔ known? a k ≠ none ∧ known? b k ≠ none ∧ known? a k ≠ known? b k := by
  unfold Clash
  cases known? a k <;> cases known? b k <;> simp

theorem sameByte_iff : SameByte a b k ↔ known? a k ≠ none ∧ known? a k = known? b k := by
  unfold SameByte
  cases known? a k <;> cases known? b k <;> simp [eq_comm]

instance : Decidable (Clash a b k) := decidable_of_iff' _ clash_iff

instance : Decidable (SameByte a b k) := decidable_of_iff' _ sameByte_iff

theorem clash_comm : Clash a b k ↔ Clash b a k := by
  rw [clash_iff, clash_iff, ne_comm (a := known? a k)]
  tauto

theorem sameByte_comm : SameByte a b k ↔ SameByte b a k := by
  unfold SameByte
  simp only [and_comm]

theorem FirstEnd.comm (h : FirstEnd a b m) : FirstEnd b a m :=
  ⟨h.ends.symm, fun k hk => (h.first k hk).symm⟩

theorem exists_firstEnd (a b : List Group) : ∃ m, FirstEnd a b m := by
  classical
  have hends : ∃ m, Ends a m ∨ Ends b m := ⟨a.length, .inl (.inl (by simp))⟩
  refine ⟨Nat.find hends, Nat.find_spec hends, ?_⟩
  intro k hk
  exact not_or.1 (Nat.find_min hends hk)

/-! ## Comparing -/

/-- What the first `m` positions say. -/
def agreementUpTo (m : Nat) (a b : List Group) : Option Nat :=
  if ∃ k < m, Clash a b k then none
  else some ((List.range m).countP fun k => SameByte a b k)

theorem agreementUpTo_comm (m : Nat) (a b : List Group) :
    agreementUpTo m a b = agreementUpTo m b a := by
  unfold agreementUpTo
  simp only [clash_comm (a := a), sameByte_comm (a := a)]

theorem agreementOf_of_ends (h : Ends a 0 ∨ Ends b 0) : agreementOf a b = some 0 := by
  unfold Ends at h
  unfold agreementOf
  split <;> simp_all

section

variable {g g' : Group} {as bs : List Group}

theorem agreementUpTo_cons (m : Nat) (g g' : Group) (as bs : List Group) :
    agreementUpTo (m + 1) (g :: as) (g' :: bs) =
      if Clash (g :: as) (g' :: bs) 0 then none
      else (agreementUpTo m as bs).map (· + if SameByte (g :: as) (g' :: bs) 0 then 1 else 0) := by
  have hclash : (∃ k < m + 1, Clash (g :: as) (g' :: bs) k) ↔
      Clash (g :: as) (g' :: bs) 0 ∨ ∃ k < m, Clash as bs k := Nat.exists_lt_succ_left
  have hcount : (List.range (m + 1)).countP (fun k => SameByte (g :: as) (g' :: bs) k) =
      (List.range m).countP (fun k => SameByte as bs k) +
        if SameByte (g :: as) (g' :: bs) 0 then 1 else 0 := by
    rw [List.range_succ_eq_map, List.countP_cons, List.countP_map]
    simp
    rfl
  unfold agreementUpTo
  rw [hcount]
  simp only [hclash]
  split_ifs <;> simp_all

theorem agreementOf_cons (hg : g ≠ .filler) (hg' : g' ≠ .filler) :
    agreementOf (g :: as) (g' :: bs) =
      if Clash (g :: as) (g' :: bs) 0 then none
      else (agreementOf as bs).map (· + if SameByte (g :: as) (g' :: bs) 0 then 1 else 0) := by
  cases g <;> cases g' <;>
    simp_all [agreementOf, clash_iff, sameByte_iff, known?, Group.value?]

end

theorem agreementOf_eq (h : FirstEnd a b m) : agreementOf a b = agreementUpTo m a b := by
  induction m generalizing a b with
  | zero =>
    rw [agreementOf_of_ends h.ends]
    simp [agreementUpTo]
  | succ m ih =>
    -- Neither signature ends before the first position, so both have a group there.
    obtain ⟨ha, hb⟩ := h.first 0 (by omega)
    unfold Ends at ha hb
    cases a with
    | nil => simp at ha
    | cons g as =>
      cases b with
      | nil => simp at hb
      | cons g' bs =>
        have hrest : FirstEnd as bs m := by
          refine ⟨h.ends, ?_⟩
          intro k hk
          exact h.first (k + 1) (by omega)
        rw [agreementOf_cons (by simpa using ha) (by simpa using hb), agreementUpTo_cons, ih hrest]

/-! ## A signature and itself -/

theorem ne_filler_of_mem_encode {g : Group} {i : Instruction} {references : List Reference}
    (h : g ∈ encode i references) : g ≠ .filler := by
  have hbytes : ∀ bytes : List UInt8, g ∈ bytes.map Group.byte → g ≠ .filler := by
    simp +contextual [eq_comm]
  unfold encode at h
  split at h
  · obtain hopcode | hwild := List.mem_append.1 h
    · exact hbytes _ hopcode
    · simp [List.eq_of_mem_replicate hwild]
  · exact hbytes _ h

theorem agreementOf_self {groups : List Group} (h : ∀ g ∈ groups, g ≠ .filler) (n : Nat) :
    agreementOf (groups ++ List.replicate n .filler) (groups ++ List.replicate n .filler) =
      some (groups.countP Group.isByte) := by
  induction groups with
  | nil => cases n <;> rfl
  | cons g groups ih =>
    have hrest := ih fun g' hg' => h g' (by simp [hg'])
    cases g with
    | byte value => simp [agreementOf, hrest, List.countP_cons, Group.isByte]
    | wildcard => simp [agreementOf, hrest, Group.isByte]
    | filler => exact absurd rfl (h .filler (by simp))

theorem agreement_ofWindow (w : List (Instruction × List Reference)) :
    (ofWindow w).agreement (ofWindow w) = some (ofWindow w).concreteLength := by
  have hknown : ∀ g ∈ (groupsOfWindow w).take groupCount, g ≠ .filler := by
    intro g hg
    obtain ⟨⟨i, references⟩, -, hencoded⟩ := List.mem_flatMap.1 (List.mem_of_mem_take hg)
    exact ne_filler_of_mem_encode hencoded
  rw [ofWindow_eq]
  unfold filledUp Pattern.agreement Pattern.concreteLength
  rw [agreementOf_self hknown, List.countP_append, List.countP_replicate]
  rfl

/-- Two signatures agree in the positions before the first end of one of them. What is written for a
function agrees with itself in all the bytes that it shows. -/
theorem agreement_by_positions :
    (∀ a b : Pattern, a.agreement b = b.agreement a ∧
      ∃ m, FirstEnd a.groups b.groups m ∧ a.agreement b = agreementUpTo m a.groups b.groups) ∧
    ∀ (view : View) (f : FunctionExtent), ∃ p, Pattern.ofText (ofFunction view f).text = .ok p ∧
      p.agreement p = some p.concreteLength := by
  refine ⟨?_, ?_⟩
  · intro a b
    obtain ⟨m, hm⟩ := exists_firstEnd a.groups b.groups
    have hab : a.agreement b = agreementUpTo m a.groups b.groups := agreementOf_eq hm
    have hba : b.agreement a = agreementUpTo m b.groups a.groups := agreementOf_eq hm.comm
    exact ⟨by rw [hab, hba, agreementUpTo_comm], m, hm, hab⟩
  · intro view f
    exact ⟨ofFunction view f, ofText_text (length_ofWindow _), agreement_ofWindow _⟩

/-- Different bytes behind a filler are not compared. -/
example : Pattern.agreement ⟨[.byte 0x55, .wildcard, .filler, .byte 1]⟩
    ⟨[.byte 0x55, .byte 2, .byte 3, .byte 4]⟩ = some 1 := by decide

end CrateTrace.Signature
