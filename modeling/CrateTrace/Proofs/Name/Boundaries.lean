import CrateTrace.Name.Bytewise
import CrateTrace.Proofs.Name.Tiling
import Mathlib.Data.String.Basic

/-!
# Bytes and character boundaries

What stands at a byte offset is told by the characters before it. A part between two such offsets
can be taken. The classes of characters that the lexer knows are ASCII, so that a byte of a wider
character is in none of them.
-/

namespace CrateTrace.Name

/-! ## Boundaries -/

theorem isBoundary_iff {text : String} {pos : Nat} :
    isBoundary text pos = true ↔ ∃ a b, text.toList = a ++ b ∧ byteLength a = pos := by
  rw [isBoundary, String.Pos.Raw.isValid_eq_true_iff, String.Pos.Raw.isValid_iff_exists_append]
  constructor
  · rintro ⟨a, b, rfl, hpos⟩
    refine ⟨a.toList, b.toList, by simp, ?_⟩
    rw [byteLength_toList]
    exact (congrArg (·.byteIdx) hpos).symm
  · rintro ⟨a, b, htext, rfl⟩
    refine ⟨String.ofList a, String.ofList b, ?_, ?_⟩
    · rw [← String.ofList_append, ← htext, String.ofList_toList]
    · rw [← String.toList_ofList (l := a), byteLength_toList, String.ofList_toList]
      rfl

theorem byteLength_eq_utf8Len (input : List Char) : byteLength input = String.utf8Len input := by
  rw [← String.utf8ByteSize_ofList, ← byteLength_toList, String.toList_ofList]

/-- A part between two boundaries can be taken. -/
theorem part?_eq {text : String} {a m b : List Char} (h : text.toList = a ++ m ++ b) :
    part? text (byteLength a) (byteLength a + byteLength m) = some (String.ofList m) := by
  have hstart : isBoundary text (byteLength a) = true :=
    isBoundary_iff.mpr ⟨a, m ++ b, by rw [h, List.append_assoc], rfl⟩
  have hstop : isBoundary text (byteLength a + byteLength m) = true :=
    isBoundary_iff.mpr ⟨a ++ m, b, h, byteLength_append a m⟩
  have htext : text = String.ofList (a ++ m ++ b) := by rw [← h, String.ofList_toList]
  rw [part?, if_pos ⟨Nat.le_add_right _ _, hstart, hstop⟩, htext, byteLength_eq_utf8Len,
    byteLength_eq_utf8Len, String.extract_of_valid]

/-- A part that would end inside a character cannot. -/
example : part? "aé" 0 2 = none := by decide +kernel

theorem partFrom?_eq {text : String} {a b : List Char} (h : text.toList = a ++ b) :
    partFrom? text (byteLength a) = some (String.ofList b) := by
  rw [partFrom?, ← byteLength_toList, h, byteLength_append]
  exact part?_eq (h.trans (List.append_nil _).symm)

theorem errorAt?_eq {text : String} {a m b : List Char} (h : text.toList = a ++ m ++ b)
    (cause : Cause) :
    errorAt? text (byteLength a) (byteLength a + byteLength m) cause =
      some ⟨cause, String.ofList m, byteLength a⟩ := by
  have hsize : text.utf8ByteSize = byteLength a + byteLength m + byteLength b := by
    rw [← byteLength_toList, h, byteLength_append, byteLength_append]
  have hstop : isBoundary text (byteLength a + byteLength m) = true :=
    isBoundary_iff.mpr ⟨a ++ m, b, h, byteLength_append a m⟩
  have hclamp : max (byteLength a) (min (byteLength a + byteLength m) text.utf8ByteSize) =
    byteLength a + byteLength m := by omega
  rw [errorAt?, if_pos (by omega), hclamp, boundaryFrom, if_neg (by simp [hstop])]
  dsimp only
  rw [part?_eq h]
  rfl

/-! ## Bytes -/

theorem toList_bytes (text : String) :
    text.toByteArray.data.toList = text.toList.flatMap String.utf8EncodeChar := by
  obtain ⟨chars, rfl⟩ : ∃ chars, text = String.ofList chars := ⟨_, String.ofList_toList.symm⟩
  rw [String.toByteArray_ofList, String.toList_ofList, List.utf8Encode, List.data_toByteArray]

theorem length_encoded (input : List Char) :
    (input.flatMap String.utf8EncodeChar).length = byteLength input := by
  induction input with
  | nil => rfl
  | cons c input ih =>
    rw [List.flatMap_cons, List.length_append, String.length_utf8EncodeChar, ih, byteLength_cons]

theorem byteAt?_append {text : String} {a rest : List Char} (h : text.toList = a ++ rest) :
    byteAt? text (byteLength a) =
      (rest.flatMap String.utf8EncodeChar).head?.map Char.ofUInt8 := by
  rw [byteAt?, toList_bytes, h, List.flatMap_append, ← length_encoded,
    List.getElem?_append_right (Nat.le_refl _), Nat.sub_self, List.head?_eq_getElem?]

/-- The byte is an ASCII character, or none of both is one. -/
def Leads (b c : Char) : Prop := b = c ∨ b.utf8Size ≠ 1 ∧ c.utf8Size ≠ 1

theorem utf8Size_eq_one {c : Char} : c.utf8Size = 1 ↔ c.val.toNat ≤ 127 := by
  rw [Char.utf8Size_eq_one_iff, UInt32.le_iff_toNat_le]
  rfl

theorem wide_byte {n : Nat} (hlow : 128 ≤ n) (hhigh : n < 256) :
    (Char.ofUInt8 (UInt8.ofNat n)).utf8Size ≠ 1 := by
  have hval : (Char.ofUInt8 (UInt8.ofNat n)).val.toNat = n :=
    (UInt8.toNat_toUInt32 _).trans (UInt8.toNat_ofNat_of_lt' hhigh)
  rw [ne_eq, utf8Size_eq_one, hval]
  omega

theorem leads_encoded (c : Char) :
    ∃ b more, String.utf8EncodeChar c = b :: more ∧ Leads (Char.ofUInt8 b) c := by
  by_cases hc : c.utf8Size = 1
  · have hval := utf8Size_eq_one.mp hc
    refine ⟨c.val.toUInt8, [], String.utf8EncodeChar_eq_singleton hc, .inl ?_⟩
    have hbyte : c.val.toUInt8.toNat = c.val.toNat := by
      rw [UInt32.toNat_toUInt8]
      omega
    exact Char.ext (UInt32.toNat_inj.mp ((UInt8.toNat_toUInt32 _).trans hbyte))
  · have hval : ¬ c.val.toNat ≤ 127 := fun hval => hc (utf8Size_eq_one.mpr hval)
    unfold String.utf8EncodeChar
    dsimp only
    rw [if_neg hval]
    split
    · exact ⟨_, _, rfl, .inr ⟨wide_byte (by omega) (by omega), hc⟩⟩
    · split
      · exact ⟨_, _, rfl, .inr ⟨wide_byte (by omega) (by omega), hc⟩⟩
      · exact ⟨_, _, rfl, .inr ⟨wide_byte (by omega) (by omega), hc⟩⟩

theorem byteAt?_cons {text : String} {a rest : List Char} {c : Char}
    (h : text.toList = a ++ c :: rest) :
    ∃ b, byteAt? text (byteLength a) = some b ∧ Leads b c := by
  obtain ⟨b, more, hbytes, hleads⟩ := leads_encoded c
  exact ⟨Char.ofUInt8 b, by simp [byteAt?_append h, hbytes], hleads⟩

theorem byteAt?_eq_some_iff {text : String} {a rest : List Char} {c : Char} (hc : c.utf8Size = 1)
    (h : text.toList = a ++ rest) :
    byteAt? text (byteLength a) = some c ↔ rest.head? = some c := by
  cases rest with
  | nil => simp [byteAt?_append h]
  | cons first rest =>
    obtain ⟨b, hbyte, rfl | ⟨hb, hfirst⟩⟩ := byteAt?_cons h
    · rw [hbyte, List.head?_cons]
    · have hb' : b ≠ c := fun hbc => hb (hbc ▸ hc)
      have hfirst' : first ≠ c := fun hfirstc => hfirst (hfirstc ▸ hc)
      simp [hbyte, hb', hfirst']

/-- No byte of a wide character is taken for one of an ASCII class. -/
theorem byteAt?_filter {text : String} {a rest : List Char} {p : Char → Bool}
    (hp : ∀ c, p c = true → c.utf8Size = 1) (h : text.toList = a ++ rest) :
    (byteAt? text (byteLength a)).filter p = rest.head?.filter p := by
  cases rest with
  | nil => simp [byteAt?_append h]
  | cons c rest =>
    obtain ⟨b, hbyte, rfl | ⟨hb, hc⟩⟩ := byteAt?_cons h
    · rw [hbyte]
      rfl
    · have hb' : p b = false := Bool.eq_false_iff.mpr fun hpb => hb (hp b hpb)
      have hc' : p c = false := Bool.eq_false_iff.mpr fun hpc => hc (hp c hpc)
      rw [hbyte, List.head?_cons, Option.filter_some, Option.filter_some, hb', hc']
      rfl

theorem byteAt?_any {text : String} {a rest : List Char} {p : Char → Bool}
    (hp : ∀ c, p c = true → c.utf8Size = 1) (h : text.toList = a ++ rest) :
    (byteAt? text (byteLength a)).any p = rest.head?.any p := by
  rw [← Option.isSome_filter, byteAt?_filter hp h, Option.isSome_filter]

/-- A run of an ASCII class takes as many bytes as characters. -/
theorem runEnd_eq {p : Char → Bool} (hp : ∀ c, p c = true → c.utf8Size = 1) {text : String}
    {a rest : List Char} (h : text.toList = a ++ rest) :
    runEnd p text (byteLength a) = byteLength a + (rest.takeWhile p).length := by
  induction rest generalizing a with
  | nil =>
    rw [runEnd, if_neg (by simp [byteAt?_any hp h])]
    rfl
  | cons c rest ih =>
    have hsize : byteLength a < text.utf8ByteSize := by
      have hpos := c.utf8Size_pos
      rw [← byteLength_toList, h, byteLength_append, byteLength_cons]
      omega
    by_cases hc : p c = true
    · have hnext := ih (a := a ++ [c]) (by simpa using h)
      have hwidth : byteLength (a ++ [c]) = byteLength a + 1 := by
        rw [byteLength_append, byteLength_cons, hp c hc]
        rfl
      rw [hwidth] at hnext
      rw [runEnd, if_pos ⟨hsize, by simp [byteAt?_any hp h, hc]⟩, hnext,
        List.takeWhile_cons_of_pos hc, List.length_cons]
      omega
    · rw [runEnd, if_neg (by simp [byteAt?_any hp h, hc]), List.takeWhile_cons_of_neg hc]
      rfl

end CrateTrace.Name
