import CrateTrace.Proofs.Name.Boundaries
import CrateTrace.Proofs.Signature.Text

/-!
# What is read as a signature

A text is a signature just if it consists of 32 groups, and writing what was read gives the text
again. What is wrong with any other text is told by its length or by the first group that is none.
-/

namespace CrateTrace.Signature

open Name Text

/-! ## Texts of groups -/

def IsHexDigit (c : Char) : Prop := c ∈ "0123456789abcdef".toList

/-- The two characters of a group. -/
def IsGroup (a b : Char) : Prop :=
  a = '.' ∧ b = '.' ∨ a = '-' ∧ b = '-' ∨ IsHexDigit a ∧ IsHexDigit b

instance (c : Char) : Decidable (IsHexDigit c) := inferInstanceAs (Decidable (_ ∈ _))

instance (a b : Char) : Decidable (IsGroup a b) := inferInstanceAs (Decidable (_ ∨ _ ∨ _))

def joined (pairs : List (Char × Char)) : List Char := pairs.flatMap fun (a, b) => [a, b]

def IsSignature (text : String) : Prop :=
  ∃ pairs, pairs.length = groupCount ∧ text.toList = joined pairs ∧
    ∀ pair ∈ pairs, IsGroup pair.1 pair.2

/-- Text that may be cut into groups at every second byte. -/
structure IsSized (text : String) : Prop where
  bytes : text.utf8ByteSize = 2 * groupCount
  ascii : ∀ c ∈ text.toList, c.toNat < 128

/-- The first two characters that should be a group and are none, behind `offset` characters. -/
def FirstOffending (text : String) (a b : Char) (offset : Nat) : Prop :=
  ∃ before rest, text.toList = joined before ++ a :: b :: rest ∧
    (∀ pair ∈ before, IsGroup pair.1 pair.2) ∧ ¬ IsGroup a b ∧ offset = 2 * before.length

/-- What is wrong with a text. -/
inductive IsFault (text : String) : PatternError → Prop where
  | length : ¬ IsSized text → IsFault text (.length text.length)
  | group {a b : Char} {offset : Nat} : IsSized text → FirstOffending text a b offset →
    IsFault text (.group (String.ofList [a, b]) offset)

/-! ## Groups -/

theorem isHexDigit_iff {c : Char} : IsHexDigit c ↔ ∃ n < 16, hexDigit n = c := by
  have hdigits : "0123456789abcdef".toList = (List.range 16).map hexDigit := by decide
  rw [IsHexDigit, hdigits, List.mem_map]
  simp only [List.mem_range]

theorem isGroup_iff {a b : Char} : IsGroup a b ↔ ∃ g : Group, g.text = [a, b] := by
  constructor
  · rintro (⟨rfl, rfl⟩ | ⟨rfl, rfl⟩ | ⟨ha, hb⟩)
    · exact ⟨.wildcard, rfl⟩
    · exact ⟨.filler, rfl⟩
    · obtain ⟨m, hm, rfl⟩ := isHexDigit_iff.1 ha
      obtain ⟨n, hn, rfl⟩ := isHexDigit_iff.1 hb
      refine ⟨.byte (.ofNat (16 * m + n)), hexByte_of_readHexByte? ?_⟩
      rw [readHexByte?, hexValue?_hexDigit m hm, hexValue?_hexDigit n hn]
      rfl
  · rintro ⟨g, hg⟩
    cases g with
    | byte value =>
      have hvalue := value.toNat_lt
      cases hg
      exact .inr (.inr ⟨isHexDigit_iff.2 ⟨_, by omega, rfl⟩, isHexDigit_iff.2 ⟨_, by omega, rfl⟩⟩)
    | wildcard =>
      cases hg
      exact .inl ⟨rfl, rfl⟩
    | filler =>
      cases hg
      exact .inr (.inl ⟨rfl, rfl⟩)

theorem joined_cons (a b : Char) (pairs : List (Char × Char)) :
    joined ((a, b) :: pairs) = a :: b :: joined pairs := rfl

theorem joined_append (before after : List (Char × Char)) :
    joined (before ++ after) = joined before ++ joined after := List.flatMap_append

theorem exists_pairs {n : Nat} {chars : List Char} (h : chars.length = 2 * n) :
    ∃ pairs, pairs.length = n ∧ chars = joined pairs := by
  induction n generalizing chars with
  | zero => exact ⟨[], rfl, List.eq_nil_of_length_eq_zero h⟩
  | succ n ih =>
    match chars, h with
    | a :: b :: rest, h =>
      have hrest : rest.length = 2 * n := by simpa [Nat.mul_succ] using h
      obtain ⟨pairs, rfl, rfl⟩ := ih hrest
      exact ⟨(a, b) :: pairs, rfl, rfl⟩

theorem exists_groups {pairs : List (Char × Char)} (h : ∀ pair ∈ pairs, IsGroup pair.1 pair.2) :
    ∃ groups : List Group, groups.length = pairs.length ∧
      groups.flatMap Group.text = joined pairs := by
  induction pairs with
  | nil => exact ⟨[], rfl, rfl⟩
  | cons pair pairs ih =>
    obtain ⟨hpair, hpairs⟩ := List.forall_mem_cons.1 h
    obtain ⟨g, hg⟩ := isGroup_iff.1 hpair
    obtain ⟨groups, hlength, htext⟩ := ih hpairs
    refine ⟨g :: groups, by rw [List.length_cons, hlength, List.length_cons], ?_⟩
    rw [List.flatMap_cons, hg, htext]
    rfl

theorem exists_pairs_of_groups (groups : List Group) :
    ∃ pairs, pairs.length = groups.length ∧ groups.flatMap Group.text = joined pairs ∧
      ∀ pair ∈ pairs, IsGroup pair.1 pair.2 := by
  induction groups with
  | nil => exact ⟨[], rfl, rfl, by simp⟩
  | cons g groups ih =>
    obtain ⟨pairs, hlength, htext, hpairs⟩ := ih
    obtain ⟨a, b, hg, -⟩ := exists_text g
    refine ⟨(a, b) :: pairs, by rw [List.length_cons, hlength, List.length_cons], ?_,
      List.forall_mem_cons.2 ⟨isGroup_iff.2 ⟨g, hg⟩, hpairs⟩⟩
    rw [List.flatMap_cons, hg, htext]
    rfl

/-- Signatures are what is written for 32 groups. -/
theorem isSignature_iff {text : String} :
    IsSignature text ↔ ∃ p : Pattern, p.groups.length = groupCount ∧ p.text = text := by
  constructor
  · rintro ⟨pairs, hlength, htext, hpairs⟩
    obtain ⟨groups, hgroups, hwritten⟩ := exists_groups hpairs
    refine ⟨⟨groups⟩, hgroups.trans hlength, String.toList_inj.1 ?_⟩
    rw [toList_text, hwritten, htext]
  · rintro ⟨p, hlength, rfl⟩
    obtain ⟨pairs, hpairs, htext, hgroups⟩ := exists_pairs_of_groups p.groups
    exact ⟨pairs, hpairs.trans hlength, (toList_text p).trans htext, hgroups⟩

/-! ## Sizes -/

theorem utf8Size_eq_one_iff_ascii {c : Char} : c.utf8Size = 1 ↔ c.toNat < 128 :=
  utf8Size_eq_one.trans Nat.le_iff_lt_add_one

theorem byteLength_of_ascii {text : List Char} (h : ∀ c ∈ text, c.toNat < 128) :
    byteLength text = text.length :=
  byteLength_ascii fun c hc => utf8Size_eq_one_iff_ascii.2 (h c hc)

theorem isSized_iff {text : String} : IsSized text ↔
    text.toList.length = 2 * groupCount ∧ text.toList.all (·.toNat < 128) = true := by
  have hall : text.toList.all (·.toNat < 128) = true ↔ ∀ c ∈ text.toList, c.toNat < 128 := by simp
  rw [hall]
  constructor
  · rintro ⟨hbytes, hascii⟩
    rw [← byteLength_toList, byteLength_of_ascii hascii] at hbytes
    exact ⟨hbytes, hascii⟩
  · rintro ⟨hlength, hascii⟩
    refine ⟨?_, hascii⟩
    rw [← byteLength_toList, byteLength_of_ascii hascii, hlength]

theorem ofText_of_sized {text : String} (h : IsSized text) :
    Pattern.ofText text = (groupsOf 0 text.toList).map Pattern.mk := by
  rw [Pattern.ofText, if_pos (isSized_iff.1 h)]
  cases groupsOf 0 text.toList <;> rfl

theorem ofText_of_not_sized {text : String} (h : ¬ IsSized text) :
    Pattern.ofText text = .error (.length text.length) := by
  rw [Pattern.ofText, if_neg fun hsized => h (isSized_iff.2 hsized), String.length_toList]

/-! ## Faults -/

theorem groupsOf_of_offending {text : String} {a b : Char} {offset : Nat}
    (h : FirstOffending text a b offset) :
    groupsOf 0 text.toList = .error (.group (String.ofList [a, b]) offset) := by
  obtain ⟨before, rest, htext, hbefore, hoffends, rfl⟩ := h
  obtain ⟨groups, hlength, hgroups⟩ := exists_groups hbefore
  have hnone : Group.ofText? a b = none := by
    rw [Option.eq_none_iff_forall_ne_some]
    intro g hread
    exact hoffends (isGroup_iff.2 ⟨g, text_of_ofText? hread⟩)
  rw [htext, ← hgroups, groupsOf_append, hlength, Nat.zero_add, groupsOf, hnone]
  rfl

theorem ofText_of_isFault {text : String} {e : PatternError} (h : IsFault text e) :
    Pattern.ofText text = .error e := by
  cases h with
  | length hsized => exact ofText_of_not_sized hsized
  | group hsized hoffends =>
    rw [ofText_of_sized hsized, groupsOf_of_offending hoffends]
    rfl

theorem isSignature_or_offending {text : String} (h : IsSized text) :
    IsSignature text ∨ ∃ a b offset, FirstOffending text a b offset := by
  obtain ⟨pairs, hlength, htext⟩ := exists_pairs (isSized_iff.1 h).1
  cases hfirst : pairs.find? fun pair => !decide (IsGroup pair.1 pair.2) with
  | none =>
    refine .inl ⟨pairs, hlength, htext, fun pair hpair => ?_⟩
    simpa using List.find?_eq_none.1 hfirst pair hpair
  | some pair =>
    obtain ⟨hoffends, before, rest, rfl, hbefore⟩ := List.find?_eq_some_iff_append.1 hfirst
    refine .inr ⟨pair.1, pair.2, _, before, joined rest, ?_, fun pair hpair => ?_, ?_, rfl⟩
    · rw [htext, joined_append, joined_cons]
    · simpa using hbefore pair hpair
    · simpa using hoffends

theorem isSignature_or_fault (text : String) : IsSignature text ∨ ∃ e, IsFault text e := by
  by_cases hsized : IsSized text
  · obtain hsignature | ⟨a, b, offset, hoffends⟩ := isSignature_or_offending hsized
    · exact .inl hsignature
    · exact .inr ⟨_, .group hsized hoffends⟩
  · exact .inr ⟨_, .length hsized⟩

/-! ## Signatures -/

theorem ofText_eq_ok_iff {text : String} {p : Pattern} :
    Pattern.ofText text = .ok p ↔ p.groups.length = groupCount ∧ p.text = text := by
  constructor
  · intro hread
    obtain hsignature | ⟨e, hfault⟩ := isSignature_or_fault text
    · obtain ⟨q, hlength, rfl⟩ := isSignature_iff.1 hsignature
      rw [ofText_text hlength] at hread
      obtain rfl := Except.ok.inj hread
      exact ⟨hlength, rfl⟩
    · rw [ofText_of_isFault hfault] at hread
      cases hread
  · rintro ⟨hlength, rfl⟩
    exact ofText_text hlength

theorem ofText_eq_error_iff {text : String} {e : PatternError} :
    Pattern.ofText text = .error e ↔ IsFault text e := by
  constructor
  · intro hread
    obtain hsignature | ⟨e', hfault⟩ := isSignature_or_fault text
    · obtain ⟨p, hp⟩ := isSignature_iff.1 hsignature
      rw [ofText_eq_ok_iff.2 hp] at hread
      cases hread
    · rw [ofText_of_isFault hfault] at hread
      obtain rfl := Except.error.inj hread
      exact hfault
  · exact ofText_of_isFault

end CrateTrace.Signature
