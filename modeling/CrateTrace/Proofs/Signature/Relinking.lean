import CrateTrace.Proofs.Signature.Text
import CrateTrace.Signature.Encoding
import Mathlib.Data.List.Forall2

/-!
# Signatures of relinked programs

Where a program is linked elsewhere, only the distances in it change. A signature has wildcards for
a distance, but takes those far below zero for other numbers and shows their bytes.
-/

namespace CrateTrace.Signature

open Program

variable {i i' : Instruction} {references references' : List Reference} {lead : List UInt8}

/-! ## Distances -/

/-- The last four bytes of an instruction, the lowest first. -/
structure Distance where
  a : UInt8
  b : UInt8
  c : UInt8
  d : UInt8

namespace Distance

def bytes (x : Distance) : List UInt8 := [x.a, x.b, x.c, x.d]

def word (x : Distance) : BitVec 32 :=
  x.d.toBitVec ++ x.c.toBitVec ++ x.b.toBitVec ++ x.a.toBitVec

/-- In two's complement. -/
def value (x : Distance) : Int := x.word.toInt

/-- Distances below this are read as numbers above zero. -/
def InReach (x : Distance) : Prop := -0x10000000 ≤ x.value

instance (x : Distance) : Decidable x.InReach := inferInstanceAs (Decidable (_ ≤ _))

theorem toNat_append_byte {n : Nat} (high : BitVec n) (low : UInt8) :
    (high ++ low.toBitVec).toNat = 0x100 * high.toNat + low.toNat := by
  rw [BitVec.toNat_append, UInt8.toNat_toBitVec, ← Nat.shiftLeft_add_eq_or_of_lt low.toNat_lt,
    Nat.shiftLeft_eq, Nat.mul_comm]

theorem toNat_word (x : Distance) :
    x.word.toNat = x.a.toNat + 0x100 * x.b.toNat + 0x10000 * x.c.toNat + 0x1000000 * x.d.toNat := by
  simp only [word, toNat_append_byte, UInt8.toNat_toBitVec]
  omega

/-- The number that is read for a distance out of reach is a whole turn of 32 bits too high. -/
theorem relativeDisplacement_eq (x : Distance) :
    relativeDisplacement x.a x.b x.c x.d =
      if x.InReach then x.value else x.value + 0x100000000 := by
  have hword := x.toNat_word
  have hlt := x.word.isLt
  have hvalue : x.value = if 2 * x.word.toNat < 2 ^ 32 then (x.word.toNat : Int)
      else x.word.toNat - 2 ^ 32 := BitVec.toInt_eq_toNat_cond x.word
  have hreach : x.InReach ↔ -0x10000000 ≤ x.value := Iff.rfl
  simp only [relativeDisplacement, hreach]
  split at hvalue <;> split <;> split <;> omega

end Distance

theorem displaced_turn (next : UInt64) (distance : Int) :
    displaced next (distance + 0x100000000) ≠ displaced next distance := by
  intro h
  have hturn : UInt64.ofInt (distance + 0x100000000) = UInt64.ofInt distance + 0x100000000 :=
    UInt64.ofInt_add ..
  rw [displaced, displaced, hturn, ← UInt64.add_assoc, UInt64.add_eq_left] at h
  revert h
  decide

/-! ## Instructions -/

/-- An instruction that ends in the distance, from the next one, to the only thing that it refers
to. -/
structure EndsIn (i : Instruction) (references : List Reference) (lead : List UInt8)
    (x : Distance) : Prop where
  bytes : i.bytes = lead ++ x.bytes
  leads : lead ≠ []
  refers : ∃ only, references.filter isRelocated = [only] ∧ only.target = displaced i.next x.value

theorem endsInDistance_iff {x : Distance} (h : EndsIn i references lead x) :
    endsInDistance i references ↔ x.InReach := by
  obtain ⟨hbytes, hleads, only, honly, htarget⟩ := h
  have hlead := List.length_pos_iff.2 hleads
  have hlength : i.bytes.length = lead.length + 4 := by simp [hbytes, Distance.bytes]
  have htail : i.bytes.drop (i.bytes.length - 4) = [x.a, x.b, x.c, x.d] := by
    rw [hlength, hbytes, Nat.add_sub_cancel, List.drop_left]
    rfl
  have hlong : 5 ≤ i.bytes.length := by omega
  simp only [endsInDistance, honly, htail, htarget, hlong, x.relativeDisplacement_eq,
    decide_true, Bool.true_and, beq_iff_eq]
  split
  · rename_i hreach
    exact iff_of_true rfl hreach
  · rename_i hfar
    exact iff_of_false (displaced_turn i.next x.value) hfar

/-- What a signature shows of a distance. -/
def Distance.groups (x : Distance) : List Group :=
  if x.InReach then List.replicate 4 .wildcard else x.bytes.map .byte

theorem encode_of_endsIn {x : Distance} (h : EndsIn i references lead x) :
    encode i references = lead.map .byte ++ x.groups := by
  have hbytes := h.bytes
  have hlength : i.bytes.length = lead.length + 4 := by simp [hbytes, Distance.bytes]
  unfold encode Distance.groups
  simp only [endsInDistance_iff h, hlength, Nat.add_sub_cancel]
  split
  · rw [hbytes, List.take_left]
  · rw [hbytes, List.map_append]

theorem length_encode (i : Instruction) (references : List Reference) :
    (encode i references).length = i.bytes.length := by
  unfold encode
  split
  · rename_i hends
    have hlong : 5 ≤ i.bytes.length := by
      unfold endsInDistance at hends
      split at hends
      · exact of_decide_eq_true (Bool.and_eq_true_iff.1 hends).1
      · cases hends
    simp
    omega
  · simp

/-! ## Pairs of instructions -/

/-- An instruction as it was, or with another distance and another target. -/
inductive Relinked : Instruction × List Reference → Instruction × List Reference → Prop where
  | kept {i i' : Instruction} {references : List Reference} (address : i.address = i'.address)
    (bytes : i.bytes = i'.bytes) : Relinked (i, references) (i', references)
  | moved {i i' : Instruction} {references references' : List Reference} {lead : List UInt8}
    {x x' : Distance} (address : i.address = i'.address) (ends : EndsIn i references lead x)
    (ends' : EndsIn i' references' lead x') : Relinked (i, references) (i', references')

/-- Two distances are the same in the first `n` groups. -/
def Alike (n : Nat) (x x' : Distance) : Prop :=
  n = 0 ∨ (x.InReach ∧ x'.InReach) ∨
    (¬ x.InReach ∧ ¬ x'.InReach ∧ x.bytes.take n = x'.bytes.take n)

theorem alike_self (n : Nat) (x : Distance) : Alike n x x := by
  by_cases hreach : x.InReach
  · exact .inr (.inl ⟨hreach, hreach⟩)
  · exact .inr (.inr ⟨hreach, hreach, rfl⟩)

theorem take_groups_eq_iff {n : Nat} {x x' : Distance} :
    x.groups.take n = x'.groups.take n ↔ Alike n x x' := by
  rcases n with _ | n
  · simp [Alike]
  unfold Distance.groups Alike
  by_cases hx : x.InReach <;> by_cases hx' : x'.InReach
  · simp [hx, hx']
  · -- A byte is no wildcard.
    simp [hx, hx', Distance.bytes, List.replicate]
  · simp [hx, hx', Distance.bytes, List.replicate]
  · rw [if_neg hx, if_neg hx', ← List.map_take, ← List.map_take,
      List.map_inj_right fun _ _ h => Group.byte.inj h]
    simp [hx, hx']

theorem eq_of_endsIn {lead' : List UInt8} {x x' : Distance} (h : EndsIn i references lead x)
    (h' : EndsIn i' references' lead' x') (hbytes : i.bytes = i'.bytes) : lead = lead' ∧ x = x' := by
  rw [h.bytes, h'.bytes] at hbytes
  obtain ⟨hlead, htail⟩ := List.append_inj' hbytes rfl
  obtain ⟨a, b, c, d⟩ := x
  obtain ⟨a', b', c', d'⟩ := x'
  cases htail
  exact ⟨hlead, rfl⟩

theorem encode_congr (haddress : i.address = i'.address) (hbytes : i.bytes = i'.bytes)
    (references : List Reference) : encode i references = encode i' references := by
  obtain ⟨address, bytes, text⟩ := i
  cases haddress
  cases hbytes
  rfl

theorem Relinked.length_eq (h : Relinked (i, references) (i', references')) :
    i.bytes.length = i'.bytes.length := by
  cases h with
  | kept address bytes => rw [bytes]
  | moved address ends ends' =>
    rw [ends.bytes, ends'.bytes, List.length_append, List.length_append]
    rfl

theorem take_encode_eq_iff (h : Relinked (i, references) (i', references')) (n : Nat) :
    (encode i references).take n = (encode i' references').take n ↔
      ∀ lead x x', EndsIn i references lead x → EndsIn i' references' lead x' →
        Alike (n - lead.length) x x' := by
  cases h with
  | kept address bytes =>
    refine iff_of_true (by rw [encode_congr address bytes]) fun lead x x' ends ends' => ?_
    obtain ⟨-, rfl⟩ := eq_of_endsIn ends ends' bytes
    exact alike_self _ x
  | @moved _ _ _ _ lead x x' address ends ends' =>
    rw [encode_of_endsIn ends, encode_of_endsIn ends', List.take_append, List.take_append,
      List.append_right_inj, List.length_map, take_groups_eq_iff]
    constructor
    · intro halike other y y' hy hy'
      obtain ⟨rfl, rfl⟩ := eq_of_endsIn ends hy rfl
      obtain ⟨-, rfl⟩ := eq_of_endsIn ends' hy' rfl
      exact halike
    · exact fun hall => hall lead x x' ends ends'

/-! ## Windows -/

variable {w w' : List (Instruction × List Reference)}

/-- What the first `n` groups show of the distances in one window and in the other is the same. -/
def ShowSame :
    Nat → List (Instruction × List Reference) → List (Instruction × List Reference) → Prop
  | n, (i, references) :: w, (i', references') :: w' =>
    (∀ lead x x', EndsIn i references lead x → EndsIn i' references' lead x' →
      Alike (n - lead.length) x x') ∧ ShowSame (n - i.bytes.length) w w'
  | _, _, _ => True

def groupsOfWindow (w : List (Instruction × List Reference)) : List Group :=
  w.flatMap fun (i, references) => encode i references

theorem groupsOfWindow_cons (i : Instruction) (references : List Reference)
    (w : List (Instruction × List Reference)) :
    groupsOfWindow ((i, references) :: w) = encode i references ++ groupsOfWindow w := rfl

def filledUp (groups : List Group) : Pattern :=
  ⟨groups ++ List.replicate (groupCount - groups.length) .filler⟩

theorem ofWindow_eq (w : List (Instruction × List Reference)) :
    ofWindow w = filledUp ((groupsOfWindow w).take groupCount) := rfl

theorem take_groupsOfWindow_eq_iff (h : List.Forall₂ Relinked w w') (n : Nat) :
    (groupsOfWindow w).take n = (groupsOfWindow w').take n ↔ ShowSame n w w' := by
  induction h generalizing n with
  | nil => exact iff_of_true rfl trivial
  | @cons p p' w w' hp h ih =>
    obtain ⟨i, references⟩ := p
    obtain ⟨i', references'⟩ := p'
    have hlength := hp.length_eq
    rw [groupsOfWindow_cons, groupsOfWindow_cons, List.take_append, List.take_append, length_encode,
      length_encode, ← hlength, ShowSame, ← ih, ← take_encode_eq_iff hp]
    constructor
    · exact fun happend => List.append_inj happend (by simp [length_encode, hlength])
    · rintro ⟨hfirst, hrest⟩
      rw [hfirst, hrest]

theorem length_groupsOfWindow (h : List.Forall₂ Relinked w w') :
    (groupsOfWindow w).length = (groupsOfWindow w').length := by
  induction h with
  | nil => rfl
  | @cons p p' w w' hp h ih =>
    rw [groupsOfWindow_cons, groupsOfWindow_cons, List.length_append, List.length_append,
      length_encode, length_encode, hp.length_eq, ih]

theorem length_ofWindow (w : List (Instruction × List Reference)) :
    (ofWindow w).groups.length = groupCount := by
  simp only [ofWindow_eq, filledUp, List.length_append, List.length_replicate, List.length_take]
  omega

theorem ofWindow_eq_iff (h : List.Forall₂ Relinked w w') :
    ofWindow w = ofWindow w' ↔
      (groupsOfWindow w).take groupCount = (groupsOfWindow w').take groupCount := by
  have hlength : ((groupsOfWindow w).take groupCount).length =
      ((groupsOfWindow w').take groupCount).length := by
    rw [List.length_take, List.length_take, length_groupsOfWindow h]
  rw [ofWindow_eq, ofWindow_eq]
  constructor
  · exact fun hsame => (List.append_inj (congrArg Pattern.groups hsame) hlength).1
  · exact congrArg filledUp

/-- Relinking leaves a signature as it is if the distances that it covers are in reach. Of others it
shows the bytes. -/
theorem text_ofWindow_eq_iff (h : List.Forall₂ Relinked w w') :
    (ofWindow w).text = (ofWindow w').text ↔ ShowSame groupCount w w' := by
  rw [text_inj (length_ofWindow w) (length_ofWindow w'), ofWindow_eq_iff h,
    take_groupsOfWindow_eq_iff h]

/-- A call ahead and a call back. -/
theorem text_ofWindow_sample :
    let entry : Instruction × List Reference := (⟨4096, [0x55], "push rbp"⟩, [])
    let ahead : Instruction × List Reference :=
      (⟨4097, [0xe8, 0x10, 0, 0, 0], "call 0x1016"⟩, [⟨4097, 4118, .call false⟩])
    let back : Instruction × List Reference :=
      (⟨4097, [0xe8, 0xf0, 0xff, 0xff, 0xff], "call 0xff6"⟩, [⟨4097, 4086, .call false⟩])
    List.Forall₂ Relinked [entry, ahead] [entry, back] ∧
      (ofWindow [entry, ahead]).text = (ofWindow [entry, back]).text ∧
      ShowSame groupCount [entry, ahead] [entry, back] := by
  intro entry ahead back
  have hahead : EndsIn ahead.1 ahead.2 [0xe8] ⟨0x10, 0, 0, 0⟩ :=
    ⟨rfl, by decide, _, rfl, by decide +kernel⟩
  have hback : EndsIn back.1 back.2 [0xe8] ⟨0xf0, 0xff, 0xff, 0xff⟩ :=
    ⟨rfl, by decide, _, rfl, by decide +kernel⟩
  have hwindows : List.Forall₂ Relinked [entry, ahead] [entry, back] :=
    .cons (.kept rfl rfl) (.cons (.moved rfl hahead hback) .nil)
  have hsame : (ofWindow [entry, ahead]).text = (ofWindow [entry, back]).text := by
    decide +kernel
  exact ⟨hwindows, hsame, (text_ofWindow_eq_iff hwindows).1 hsame⟩

/-- A call that far back shows its distance. -/
theorem text_ofWindow_differs :
    ¬ ∀ w w' : List (Instruction × List Reference), List.Forall₂ Relinked w w' →
      (ofWindow w).text = (ofWindow w').text := by
  intro hall
  let near : Instruction := ⟨4294967296, [0xe8, 0x10, 0, 0, 0], "call 0x100000015"⟩
  let far : Instruction := ⟨4294967296, [0xe8, 0, 0, 0, 0x80], "call 0x80000005"⟩
  have hnear : EndsIn near [⟨4294967296, 4294967317, .call false⟩] [0xe8] ⟨0x10, 0, 0, 0⟩ :=
    ⟨rfl, by decide, _, rfl, by decide +kernel⟩
  have hfar : EndsIn far [⟨4294967296, 2147483653, .call false⟩] [0xe8] ⟨0, 0, 0, 0x80⟩ :=
    ⟨rfl, by decide, _, rfl, by decide +kernel⟩
  have hsame := hall [(near, _)] [(far, _)] (.cons (.moved rfl hnear hfar) .nil)
  revert hsame
  decide +kernel

end CrateTrace.Signature
