import CrateTrace.Proofs.Signature.Reading
import CrateTrace.Signature.Bytewise

/-!
# The reader of bytes reads the same signatures

Only a text of ASCII characters is cut into groups, so that no group that is taken by byte offsets
is cut inside a character. Both readers accept and refuse the same texts.
-/

namespace CrateTrace.Signature

open Name Text

/-! ## ASCII -/

theorem utf8Size_ofUInt8 {b : UInt8} : (Char.ofUInt8 b).utf8Size = 1 ↔ b < 0x80 := by
  have hval : (Char.ofUInt8 b).val.toNat = b.toNat := UInt8.toNat_toUInt32 b
  have hbound : (0x80 : UInt8).toNat = 128 := rfl
  rw [utf8Size_eq_one, hval, UInt8.lt_iff_toNat_lt, hbound]
  omega

theorem utf8Size_of_leads {b c : Char} (h : Leads b c) : b.utf8Size = 1 ↔ c.utf8Size = 1 := by
  obtain rfl | ⟨hb, hc⟩ := h
  · rfl
  · exact iff_of_false hb hc

/-- A character whose bytes are all below 128 has only one. -/
theorem all_encoded_iff (c : Char) :
    (String.utf8EncodeChar c).all (· < 0x80) = true ↔ c.toNat < 128 := by
  obtain ⟨b, more, hbytes, hleads⟩ := leads_encoded c
  have hb : b < 0x80 ↔ c.toNat < 128 := by
    rw [← utf8Size_ofUInt8, utf8Size_of_leads hleads, utf8Size_eq_one_iff_ascii]
  rw [← hb]
  constructor
  · intro hall
    rw [hbytes, List.all_cons, Bool.and_eq_true] at hall
    exact of_decide_eq_true hall.1
  · intro hlow
    have hsingle := String.utf8EncodeChar_eq_singleton (utf8Size_eq_one_iff_ascii.2 (hb.1 hlow))
    obtain ⟨rfl, rfl⟩ := List.cons.inj (hbytes.symm.trans hsingle)
    simpa [hbytes] using hlow

theorem isAsciiText_iff {text : String} :
    isAsciiText text = true ↔ ∀ c ∈ text.toList, c.toNat < 128 := by
  rw [isAsciiText, bytesOfText, toList_bytes, List.all_flatMap, List.all_eq_true]
  simp only [all_encoded_iff]

theorem isSized_iff_bytes {text : String} :
    IsSized text ↔ text.utf8ByteSize = textBytes ∧ isAsciiText text = true := by
  rw [isAsciiText_iff]
  exact ⟨fun h => ⟨h.bytes, h.ascii⟩, fun h => ⟨h.1, h.2⟩⟩

/-! ## One group -/

theorem isHexByte_ofNat : ∀ n < 128,
    isHexByte (Char.ofNat n).val.toUInt8 = (hexValue? (Char.ofNat n)).isSome := by decide

theorem isHexByte_eq {c : Char} (h : c.toNat < 128) :
    isHexByte c.val.toUInt8 = (hexValue? c).isSome := by
  have hbyte := isHexByte_ofNat c.toNat h
  rwa [Char.ofNat_toNat] at hbyte

theorem bytesOfText_pair {a b : Char} (ha : a.toNat < 128) (hb : b.toNat < 128) :
    bytesOfText (String.ofList [a, b]) = [a.val.toUInt8, b.val.toUInt8] := by
  rw [bytesOfText, toList_bytes, String.toList_ofList, List.flatMap_cons, List.flatMap_singleton,
    String.utf8EncodeChar_eq_singleton (utf8Size_eq_one_iff_ascii.2 ha),
    String.utf8EncodeChar_eq_singleton (utf8Size_eq_one_iff_ascii.2 hb)]
  rfl

theorem ofPart?_pair {a b : Char} (ha : a.toNat < 128) (hb : b.toNat < 128) :
    Group.ofPart? (String.ofList [a, b]) = Group.ofText? a b := by
  have hdots : String.ofList [a, b] = ".." ↔ a = '.' ∧ b = '.' := by
    simp [← String.toList_inj]
  have hdashes : String.ofList [a, b] = "--" ↔ a = '-' ∧ b = '-' := by
    simp [← String.toList_inj]
  have hdigits : (bytesOfText (String.ofList [a, b])).all isHexByte =
      ((hexValue? a).isSome && (hexValue? b).isSome) := by
    rw [bytesOfText_pair ha hb, ← isHexByte_eq ha, ← isHexByte_eq hb]
    simp
  unfold Group.ofPart? Group.ofText?
  simp only [hdots, hdashes, hdigits, String.toList_ofList, hexNumber?, readHexByte?]
  split
  · rfl
  · split
    · rfl
    · cases hm : hexValue? a with
      | none => rfl
      | some m =>
        cases hn : hexValue? b with
        | none => rfl
        | some n =>
          have hlt : 16 * m + n < 0x100 := by
            have hm16 := (hexDigit_of_hexValue? hm).1
            have hn16 := (hexDigit_of_hexValue? hn).1
            omega
          simp [hm, hn, hlt]

/-- What is read as the group of two characters that stand at an offset. -/
def groupOf (offset : Nat) (a b : Char) : Except PatternError Group :=
  match Group.ofText? a b with
  | none => .error (.group (String.ofList [a, b]) offset)
  | some group => .ok group

theorem groupAt?_eq {text : String} {before rest : List Char} {a b : Char}
    (hascii : ∀ c ∈ text.toList, c.toNat < 128) (h : text.toList = before ++ a :: b :: rest) :
    groupAt? text before.length = some (groupOf before.length a b) := by
  rw [h, List.forall_mem_append, List.forall_mem_cons, List.forall_mem_cons] at hascii
  obtain ⟨hbefore, ha, hb, -⟩ := hascii
  have hwidth : byteLength before = before.length := byteLength_of_ascii hbefore
  have hpair : byteLength [a, b] = 2 := byteLength_of_ascii (by simpa using ⟨ha, hb⟩)
  have hpart : part? text (byteLength before) (byteLength before + byteLength [a, b]) =
      some (String.ofList [a, b]) := part?_eq (b := rest) (by simp [h])
  rw [hwidth, hpair] at hpart
  rw [groupAt?, hpart, Option.map_some, ofPart?_pair ha hb]
  rfl

/-! ## All groups -/

theorem groupsAt?_eq {text : String} {before rest : List Char} {left : Nat}
    (hascii : ∀ c ∈ text.toList, c.toNat < 128) (h : text.toList = before ++ rest)
    (hleft : rest.length = 2 * left) :
    groupsAt? text before.length left = some (groupsOf before.length rest) := by
  -- What is read is ASCII, so that its length is the byte offset of the groups that are left.
  induction left generalizing before rest with
  | zero =>
    obtain rfl := List.eq_nil_of_length_eq_zero hleft
    rfl
  | succ left ih =>
    match rest, hleft with
    | a :: b :: rest, hleft =>
      have hsplit : text.toList = (before ++ [a, b]) ++ rest := by simp [h]
      have hrest : rest.length = 2 * left := by simpa [Nat.mul_succ] using hleft
      have hnext := ih hsplit hrest
      rw [List.length_append] at hnext
      rw [groupsAt?, groupAt?_eq hascii h, Option.bind_some, groupOf, groupsOf]
      cases Group.ofText? a b with
      | none => rfl
      | some g =>
        dsimp only
        rw [show before.length + 2 = before.length + [a, b].length from rfl, hnext]
        cases groupsOf (before.length + [a, b].length) rest <;> rfl

theorem ofText?_eq (text : String) : Pattern.ofText? text = some (Pattern.ofText text) := by
  unfold Pattern.ofText?
  by_cases hsized : IsSized text
  · have hsplit : text.toList = [] ++ text.toList := rfl
    have hgroups : groupsAt? text 0 groupCount = some (groupsOf 0 text.toList) :=
      groupsAt?_eq hsized.ascii hsplit (isSized_iff.1 hsized).1
    rw [if_pos (isSized_iff_bytes.1 hsized), hgroups, ofText_of_sized hsized]
    rfl
  · rw [if_neg fun h => hsized (isSized_iff_bytes.2 h), ofText_of_not_sized hsized]

/-- Without the test for ASCII, the first group would be cut inside the second character. -/
example :
    groupsAt? "aé-------------------------------------------------------------" 0 groupCount =
      none ∧
    Pattern.ofText? "aé-------------------------------------------------------------" =
      some (.error (.length 63)) := by decide +kernel

/-- Reading a signature by byte offsets never fails to take a part of it, and gives what `ofText`
gives. The texts that are read are the signatures, each from a pattern of its own, and any other
text is refused for what is wrong with it. -/
theorem signatures_are_read_exactly (text : String) :
    Pattern.ofText? text = some (Pattern.ofText text) ∧
    ((∃ p, Pattern.ofText text = .ok p) ↔ IsSignature text) ∧
    (∀ p, Pattern.ofText text = .ok p ↔ p.groups.length = groupCount ∧ p.text = text) ∧
    (∀ other p, Pattern.ofText text = .ok p → Pattern.ofText other = .ok p → text = other) ∧
    ∀ e, Pattern.ofText text = .error e ↔ IsFault text e := by
  refine ⟨ofText?_eq text, ?_, fun p => ofText_eq_ok_iff, ?_, fun e => ofText_eq_error_iff⟩
  · rw [isSignature_iff]
    exact exists_congr fun p => ofText_eq_ok_iff
  · intro other p hread hother
    obtain ⟨-, htext⟩ := ofText_eq_ok_iff.1 hread
    obtain ⟨-, htext'⟩ := ofText_eq_ok_iff.1 hother
    exact htext.symm.trans htext'

/-- Digits above nine are lowercase. -/
theorem signatures_are_read_exactly_upperCase :
    IsSignature "55e8........c3--------------------------------------------------" ∧
      Pattern.ofText? "55E8........C3--------------------------------------------------" =
        some (.error (.group "E8" 2)) ∧
      IsFault "55E8........C3--------------------------------------------------"
        (.group "E8" 2) := by
  have hok : ∃ p, Pattern.ofText
      "55e8........c3--------------------------------------------------" = .ok p :=
    ⟨⟨[.byte 0x55, .byte 0xe8, .wildcard, .wildcard, .wildcard, .wildcard, .byte 0xc3] ++
      List.replicate 25 .filler⟩, by decide +kernel⟩
  have herror : Pattern.ofText
      "55E8........C3--------------------------------------------------" =
        .error (.group "E8" 2) := by decide +kernel
  obtain ⟨-, haccepts, -⟩ := signatures_are_read_exactly
    "55e8........c3--------------------------------------------------"
  obtain ⟨hbytes, -, -, -, hfaults⟩ := signatures_are_read_exactly
    "55E8........C3--------------------------------------------------"
  exact ⟨haccepts.1 hok, by rw [hbytes, herror], (hfaults _).1 herror⟩

end CrateTrace.Signature
