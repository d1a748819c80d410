import CrateTrace.Proofs.Elf.Extents

/-!
# Headers that say anything

The range of a function is computed in 64-bit words, and a file may hold any words there. No
difference of them is below zero. The end of a function is a plain sum, and the process stops if the
code runs over the end of the address space.
-/

namespace CrateTrace.Elf

/-! ## Words -/

def minus? (a b : UInt64) : Option UInt64 := if b ≤ a then some (a - b) else none

def plusCapped (a b : UInt64) : UInt64 := (plus? a b).getD (UInt64.ofNat maxWord)

theorem minus?_of_le {a b : UInt64} (h : b ≤ a) : minus? a b = some (a - b) := by
  simp [minus?, h]

theorem toNat_plusCapped (a b : UInt64) :
    (plusCapped a b).toNat = addCapped a.toNat b.toNat := by
  have hsize : UInt64.size = 2 ^ 64 := rfl
  unfold plusCapped plus? addCapped maxWord
  split
  · rw [Option.getD_some, UInt64.toNat_add]
    omega
  · rw [Option.getD_none, UInt64.toNat_ofNat_of_lt' (by omega)]
    omega

/-! ## Ranges -/

/-- The range of a function, with a failure where a difference would be below zero. -/
def wordRange? (address size : UInt64) (s : SectionHeader) (fileSize : UInt64) :
    Option (Option (UInt64 × UInt64)) :=
  if address < s.address ∨ plusCapped s.address s.size ≤ address then some none
  else
    (minus? address s.address).bind fun inSection =>
      let start := plusCapped s.offset inSection
      (minus? s.size inSection).map fun available =>
        let stop := min (plusCapped start (min size available)) fileSize
        if stop ≤ start then none else some (start, stop)

section

variable {address size : UInt64} {s : SectionHeader}

/-- What the first test leaves is an address of the section, also if the section runs over the end of
the address space. -/
theorem inside_of_guard
    (h : ¬ (address < s.address ∨ addCapped s.address.toNat s.size.toNat ≤ address.toNat)) :
    s.address ≤ address ∧ address.toNat - s.address.toNat < s.size.toNat := by
  rw [not_or, UInt64.not_lt] at h
  obtain ⟨hle, hlt⟩ := h
  rw [UInt64.le_iff_toNat_le] at hle ⊢
  unfold addCapped at hlt
  omega

theorem wordRange?_eq (address size : UInt64) (s : SectionHeader) (fileSize : UInt64) :
    (wordRange? address size s fileSize).map (Option.map fun (start, stop) =>
      (start.toNat, stop.toNat)) = some (fileRange? address size s fileSize.toNat) := by
  unfold wordRange? fileRange?
  simp only [UInt64.le_iff_toNat_le (b := address), toNat_plusCapped]
  split
  case isTrue => rfl
  case isFalse hguard =>
    obtain ⟨hle, hlt⟩ := inside_of_guard hguard
    have hin := UInt64.toNat_sub_of_le address s.address hle
    have hsub : address - s.address ≤ s.size := by
      rw [UInt64.le_iff_toNat_le]
      omega
    have hrest := UInt64.toNat_sub_of_le s.size (address - s.address) hsub
    simp only [minus?_of_le hle, minus?_of_le hsub, Option.bind_some, Option.map_some,
      UInt64.le_iff_toNat_le, UInt64.toNat_min, toNat_plusCapped, hin, hrest]
    split
    · rfl
    · simp only [Option.map_some, UInt64.toNat_min, toNat_plusCapped, hin, hrest]

/-- What is known of a range of the file, whatever the headers say. -/
structure RangeWithin (address size : UInt64) (s : SectionHeader) (fileSize start stop : Nat) :
    Prop where
  nonempty : start < stop
  inFile : stop ≤ fileSize
  behindSection : s.address.toNat ≤ address.toNat
  place : start = s.offset.toNat + (address.toNat - s.address.toNat)
  inSymbol : stop - start ≤ size.toNat
  inSection : address.toNat - s.address.toNat + (stop - start) ≤ s.size.toNat

/-- The symbol, its section and what the file has left all run over the end of the address space. -/
def RunsOver (address size : UInt64) (s : SectionHeader) (left : Nat) : Prop :=
  UInt64.size ≤ address.toNat + size.toNat ∧ UInt64.size ≤ s.address.toNat + s.size.toNat ∧
    UInt64.size ≤ address.toNat + left

variable {fileSize start stop : Nat}

theorem fileRange?_eq_some (h : fileRange? address size s fileSize = some (start, stop)) :
    s.address.toNat ≤ address.toNat ∧ address.toNat - s.address.toNat < s.size.toNat ∧
      start < stop ∧ start = s.offset.toNat + (address.toNat - s.address.toNat) ∧
      stop = min (start + min size.toNat (s.size.toNat - (address.toNat - s.address.toNat)))
        (min fileSize maxWord) := by
  obtain ⟨hlt, hfile, hword⟩ := bounds_of_fileRange h
  unfold fileRange? at h
  split_ifs at h with hguard
  dsimp only at h
  split_ifs at h
  obtain ⟨hle, hin⟩ := inside_of_guard hguard
  rw [UInt64.le_iff_toNat_le] at hle
  rw [Option.some.injEq, Prod.mk.injEq] at h
  obtain ⟨hstart, hstop⟩ := h
  rw [hstart] at hstop
  unfold addCapped at hstart hstop
  omega

theorem rangeWithin_of_fileRange (h : fileRange? address size s fileSize = some (start, stop)) :
    RangeWithin address size s fileSize start stop := by
  obtain ⟨hle, hin, hlt, hplace, hstop⟩ := fileRange?_eq_some h
  constructor <;> omega

theorem toNat_length (h : fileRange? address size s fileSize = some (start, stop)) :
    (UInt64.ofNat (stop - start)).toNat = stop - start := by
  obtain ⟨-, -, hword⟩ := bounds_of_fileRange h
  have hsize : UInt64.size = 2 ^ 64 := rfl
  unfold maxWord at hword
  exact UInt64.toNat_ofNat_of_lt' (by omega)

theorem plus?_eq_none_iff_runsOver
    (h : fileRange? address size s fileSize = some (start, stop)) :
    plus? address (UInt64.ofNat (stop - start)) = none ↔
      RunsOver address size s (min fileSize maxWord - start) := by
  obtain ⟨hle, hin, hlt, hplace, hstop⟩ := fileRange?_eq_some h
  rw [plus?_eq_none_iff, toNat_length h]
  unfold RunsOver
  omega

end

/-! ## Functions -/

section

open Program

variable {image : Image} {f : FunctionSymbol} {extent : FunctionExtent} {fileSize : Nat}

theorem extent?_eq_none_iff :
    f.extent? = none ↔ plus? f.entry (UInt64.ofNat (f.stop - f.start)) = none :=
  Option.map_eq_none_iff

/-- The symbol and the section that a function comes from, whatever they say. -/
theorem source_of_mem (hf : f ∈ functionSymbols image fileSize) :
    ∃ symbol ∈ image.symbols, ∃ s, symbol.isDefinedFunction = true ∧
      image.sections[symbol.sectionIndex]? = some s ∧ f.entry = symbol.value ∧
      fileRange? f.entry symbol.size s fileSize = some (f.start, f.stop) ∧
      (f.extent? = none ↔
        RunsOver f.entry symbol.size s (min fileSize maxWord - f.start)) := by
  obtain ⟨symbol, hsymbol, s, hdefined, hs, hentry, hrange⟩ := range_of_mem hf
  exact ⟨symbol, hsymbol, s, hdefined, hs, hentry, hrange,
    extent?_eq_none_iff.trans (plus?_eq_none_iff_runsOver hrange)⟩

theorem extent_exact (hf : f ∈ functionSymbols image fileSize) (h : f.extent? = some extent) :
    extent.entry = f.entry ∧ extent.entry < extent.stop ∧
      extent.stop.toNat - extent.entry.toNat = f.stop - f.start := by
  obtain ⟨hlt, -, -⟩ := bounds_of_mem hf
  obtain ⟨hentry, hstop⟩ := extent_bounds hf h
  rw [UInt64.lt_iff_toNat_lt, hentry]
  exact ⟨rfl, by omega, by omega⟩

/-- No difference of hostile words is below zero, and a range keeps to the file, the section and the
symbol. The end of a function overflows just if all of them go on to the end of the address space:
then no program is made of the file, and else every extent is as long as the code. -/
theorem extents_of_hostile_headers (address size : UInt64) (s : SectionHeader)
    (reader : ObjectReader) (disassembler : Disassembler) (bytes : ByteArray) :
    (∀ fileSize, (wordRange? address size s fileSize).map (Option.map fun (start, stop) =>
      (start.toNat, stop.toNat)) = some (fileRange? address size s fileSize.toNat)) ∧
    (∀ fileSize start stop, fileRange? address size s fileSize = some (start, stop) →
      RangeWithin address size s fileSize start stop ∧
        (plus? address (UInt64.ofNat (stop - start)) = none ↔
          RunsOver address size s (min fileSize maxWord - start))) ∧
    ∀ image, reader bytes = some (.elf image) →
      (∀ f ∈ functionSymbols image bytes.size,
        ∃ symbol ∈ image.symbols, ∃ s, symbol.isDefinedFunction = true ∧
          image.sections[symbol.sectionIndex]? = some s ∧ f.entry = symbol.value ∧
          fileRange? f.entry symbol.size s bytes.size = some (f.start, f.stop) ∧
          (f.extent? = none ↔
            RunsOver f.entry symbol.size s (min bytes.size maxWord - f.start))) ∧
      (disassemble reader disassembler bytes = .error .overflow ↔
        image.machine = x86_64 ∧ ∃ f ∈ functionSymbols image bytes.size, f.extent? = none) ∧
      ∀ p, disassemble reader disassembler bytes = .ok p →
        (functionSymbols image bytes.size).map FunctionSymbol.extent? = p.functions.map some ∧
        ∀ f ∈ functionSymbols image bytes.size, ∃ extent ∈ p.functions,
          f.extent? = some extent ∧ extent.entry = f.entry ∧ extent.entry < extent.stop ∧
          extent.stop.toNat - extent.entry.toNat = f.stop - f.start := by
  refine ⟨wordRange?_eq address size s, ?_, ?_⟩
  · intro fileSize start stop h
    exact ⟨rangeWithin_of_fileRange h, plus?_eq_none_iff_runsOver h⟩
  · intro image himage
    refine ⟨fun f hf => source_of_mem hf, disassemble_overflow_iff himage, fun p hp => ?_⟩
    obtain ⟨hextents, -⟩ := disassemble_ok himage hp
    refine ⟨hextents, fun f hf => ?_⟩
    obtain ⟨extent, hmem, hextent⟩ := extent_of_mem hextents hf
    exact ⟨extent, hmem, hextent, extent_exact hf hextent⟩

end

def fiveBytes : List UInt8 := [0xb8, 0x78, 0x56, 0x34, 0x12]

/-- The symbol stands for all but the first byte, and says that it is as large as can be. -/
def tooLarge : ByteArray := fileWith 0x1000 fiveBytes [(1, 0x1001, 0xffffffffffffffff)]

theorem read_tooLarge :
    standardReader tooLarge =
      some (.elf (imageWith 0x1000 5 [⟨"f", 18, 1, 0x1001, 0xffffffffffffffff⟩])) := by
  decide +kernel

theorem extents_of_hostile_headers_low :
    let s : SectionHeader := ⟨1, 0x1000, 64, 5, 0, 0⟩
    RangeWithin 0x1001 0xffffffffffffffff s tooLarge.size 65 69 ∧
      ∃ p, disassemble standardReader (fun _ _ => []) tooLarge = .ok p ∧
        ∃ extent ∈ p.functions, extent.entry = 0x1001 ∧ extent.entry < extent.stop ∧
          extent.stop.toNat - extent.entry.toNat = 4 := by
  intro s
  obtain ⟨-, hranges, himages⟩ :=
    extents_of_hostile_headers 0x1001 0xffffffffffffffff s standardReader (fun _ _ => []) tooLarge
  obtain ⟨hwithin, -⟩ := hranges tooLarge.size 65 69 (by decide +kernel)
  obtain ⟨p, hp⟩ : ∃ p, disassemble standardReader (fun _ _ => []) tooLarge = .ok p :=
    (exists_disassemble_iff read_tooLarge).2 ⟨rfl, by decide +kernel⟩
  obtain ⟨-, -, hprogram⟩ := himages _ read_tooLarge
  obtain ⟨extent, hmem, -, hextent⟩ := (hprogram p hp).2 ⟨"f", 0x1001, 65, 69⟩ (by decide +kernel)
  exact ⟨hwithin, p, hp, extent, hmem, hextent⟩

/-- The code lies four bytes before the end of the address space. -/
def atTheEnd : ByteArray := fileWith 0xfffffffffffffffc fiveBytes [(1, 0xfffffffffffffffc, 5)]

theorem read_atTheEnd :
    standardReader atTheEnd =
      some (.elf (imageWith 0xfffffffffffffffc 5 [⟨"f", 18, 1, 0xfffffffffffffffc, 5⟩])) := by
  decide +kernel

theorem extent_over_the_end :
    let s : SectionHeader := ⟨1, 0xfffffffffffffffc, 64, 5, 0, 0⟩
    fileRange? 0xfffffffffffffffc 5 s atTheEnd.size = some (64, 69) ∧
      plus? 0xfffffffffffffffc (UInt64.ofNat (69 - 64)) = none ∧
      disassemble standardReader (fun _ _ => []) atTheEnd = .error .overflow := by
  refine ⟨by decide +kernel, by decide, ?_⟩
  exact (disassemble_overflow_iff read_atTheEnd).2
    ⟨rfl, ⟨"f", 0xfffffffffffffffc, 64, 69⟩, by decide +kernel, by decide⟩

end CrateTrace.Elf
