import CrateTrace.Signature.Pattern

/-!
# Written signatures

A signature is read back from its text, so that different signatures have different texts. What is
read as a group is the text of this group.
-/

namespace CrateTrace

/-! ## Digits -/

namespace Text

theorem hexValue?_hexDigit : ∀ n, n < 16 → hexValue? (hexDigit n) = some n := by decide

theorem hexDigit_ascii : ∀ n, n < 16 → (hexDigit n).toNat < 128 := by decide

theorem hexDigit_ne : ∀ n, n < 16 → hexDigit n ≠ '.' ∧ hexDigit n ≠ '-' := by decide

theorem hexDigit_of_hexValue? {c : Char} {n : Nat} (h : hexValue? c = some n) :
    n < 16 ∧ hexDigit n = c := by
  have hzero : '0'.toNat = 48 := rfl
  have hnine : '9'.toNat = 57 := rfl
  have ha : 'a'.toNat = 97 := rfl
  have hf : 'f'.toNat = 102 := rfl
  unfold hexValue? at h
  split at h
  case isTrue hdigit =>
    obtain ⟨hlow, hhigh⟩ := Char.isDigit_iff_toNat.1 hdigit
    obtain rfl := Option.some.inj h
    refine ⟨by omega, ?_⟩
    rw [hexDigit, if_pos (by omega), Nat.add_sub_of_le hlow, Char.ofNat_toNat]
  case isFalse =>
    split at h
    case isTrue hletter =>
      obtain ⟨hlow, hhigh⟩ : 'a'.toNat ≤ c.toNat ∧ c.toNat ≤ 'f'.toNat := hletter
      obtain rfl := Option.some.inj h
      refine ⟨by omega, ?_⟩
      rw [hexDigit, if_neg (by omega), Nat.add_sub_cancel, Nat.add_sub_of_le hlow,
        Char.ofNat_toNat]
    case isFalse => cases h

theorem readHexByte?_hexDigit (b : UInt8) :
    readHexByte? (hexDigit (b.toNat / 16)) (hexDigit (b.toNat % 16)) = some b := by
  have hb := b.toNat_lt
  rw [readHexByte?, hexValue?_hexDigit _ (by omega), hexValue?_hexDigit _ (by omega)]
  refine congrArg some ?_
  rw [Nat.div_add_mod, UInt8.ofNat_toNat]

theorem hexByte_of_readHexByte? {a b : Char} {value : UInt8}
    (h : readHexByte? a b = some value) : hexByte value = [a, b] := by
  simp only [readHexByte?, bind, pure, Option.bind_eq_some_iff, Option.some.injEq] at h
  obtain ⟨m, hm, n, hn, rfl⟩ := h
  obtain ⟨hm16, rfl⟩ := hexDigit_of_hexValue? hm
  obtain ⟨hn16, rfl⟩ := hexDigit_of_hexValue? hn
  have hsize : 16 * m + n < 256 := by omega
  have hvalue : (UInt8.ofNat (16 * m + n)).toNat = 16 * m + n := UInt8.toNat_ofNat_of_lt' hsize
  have hhigh : (16 * m + n) / 16 = m := by omega
  have hlow : (16 * m + n) % 16 = n := by omega
  rw [hexByte, hvalue, hhigh, hlow]

end Text

namespace Signature

open Text

/-! ## Groups -/

/-- Every group is two characters, from which it is read back. -/
theorem exists_text (g : Group) :
    ∃ a b, g.text = [a, b] ∧ Group.ofText? a b = some g ∧ a.toNat < 128 ∧ b.toNat < 128 := by
  cases g with
  | byte value =>
    have hvalue := value.toNat_lt
    obtain ⟨hdot, hdash⟩ := hexDigit_ne (value.toNat / 16) (by omega)
    refine ⟨_, _, rfl, ?_, hexDigit_ascii _ (by omega), hexDigit_ascii _ (by omega)⟩
    rw [Group.ofText?, if_neg fun h => hdot h.1, if_neg fun h => hdash h.1, readHexByte?_hexDigit]
    rfl
  | wildcard => exact ⟨_, _, rfl, rfl, by decide, by decide⟩
  | filler => exact ⟨_, _, rfl, rfl, by decide, by decide⟩

theorem text_of_ofText? {a b : Char} {g : Group} (h : Group.ofText? a b = some g) :
    g.text = [a, b] := by
  unfold Group.ofText? at h
  split at h
  case isTrue hdots =>
    obtain ⟨rfl, rfl⟩ := hdots
    obtain rfl := Option.some.inj h
    rfl
  case isFalse =>
    split at h
    case isTrue hdashes =>
      obtain ⟨rfl, rfl⟩ := hdashes
      obtain rfl := Option.some.inj h
      rfl
    case isFalse =>
      obtain ⟨value, hvalue, rfl⟩ := Option.map_eq_some_iff.1 h
      exact hexByte_of_readHexByte? hvalue

/-- Groups in front of a text are read before it. -/
theorem groupsOf_append (groups : List Group) (offset : Nat) (rest : List Char) :
    groupsOf offset (groups.flatMap Group.text ++ rest) =
      (groupsOf (offset + 2 * groups.length) rest).map (groups ++ ·) := by
  induction groups generalizing offset with
  | nil =>
    cases h : groupsOf offset rest <;> simp [Except.map, h]
  | cons g groups ih =>
    obtain ⟨a, b, htext, hread, -⟩ := exists_text g
    have hoffset : offset + 2 + 2 * groups.length = offset + 2 * (g :: groups).length := by
      rw [List.length_cons]
      omega
    rw [List.flatMap_cons, htext, List.append_assoc, List.cons_append, List.cons_append,
      List.nil_append, groupsOf, hread]
    simp only [ih, hoffset]
    cases groupsOf (offset + 2 * (g :: groups).length) rest <;> rfl

theorem groupsOf_text (groups : List Group) (offset : Nat) :
    groupsOf offset (groups.flatMap Group.text) = .ok groups := by
  calc groupsOf offset (groups.flatMap Group.text)
      = groupsOf offset (groups.flatMap Group.text ++ []) := by rw [List.append_nil]
    _ = .ok (groups ++ []) := groupsOf_append groups offset []
    _ = .ok groups := by rw [List.append_nil]

theorem length_text (groups : List Group) :
    (groups.flatMap Group.text).length = 2 * groups.length := by
  induction groups with
  | nil => rfl
  | cons g groups ih =>
    obtain ⟨a, b, htext, -⟩ := exists_text g
    rw [List.flatMap_cons, htext, List.length_append, ih, List.length_cons]
    simp only [List.length_cons, List.length_nil]
    omega

theorem ascii_text (groups : List Group) :
    (groups.flatMap Group.text).all (·.toNat < 128) = true := by
  rw [List.all_flatMap, List.all_eq_true]
  intro g _
  obtain ⟨a, b, htext, -, ha, hb⟩ := exists_text g
  simp [htext, ha, hb]

/-! ## Signatures -/

theorem toList_text (p : Pattern) : p.text.toList = p.groups.flatMap Group.text :=
  String.toList_ofList

theorem ofText_text {p : Pattern} (h : p.groups.length = groupCount) :
    Pattern.ofText p.text = .ok p := by
  rw [Pattern.ofText, toList_text]
  simp only [length_text, h, ascii_text, groupsOf_text, and_self, if_true]

theorem text_inj {p q : Pattern} (hp : p.groups.length = groupCount)
    (hq : q.groups.length = groupCount) : p.text = q.text ↔ p = q := by
  constructor
  · intro htext
    have hread := ofText_text hp
    rw [htext, ofText_text hq] at hread
    cases hread
    rfl
  · rintro rfl
    rfl

end Signature

end CrateTrace
