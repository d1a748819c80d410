import CrateTrace.Proofs.Elf.Extents

/-!
# Functions and the code of others

All functions of an image are disassembled into one table. So what a function shows may come from
another one, and is its own as long as no other has an instruction in its range that it has not.
-/

namespace CrateTrace.Elf

open Program

/-! ## Own instructions -/

/-- The instructions that are kept and start in a function are its own. -/
def Undisturbed (disassembler : Disassembler) (bytes : ByteArray) (functions : List FunctionSymbol)
    (f : FunctionSymbol) : Prop :=
  ∀ d ∈ listing disassembler bytes functions,
    last? (listing disassembler bytes functions) d.address = some d →
      f.Covers d.address → d.decode ∈ (own disassembler bytes f).map Disassembled.decode

instance (disassembler : Disassembler) (bytes : ByteArray) (functions : List FunctionSymbol)
    (f : FunctionSymbol) : Decidable (Undisturbed disassembler bytes functions f) :=
  inferInstanceAs (Decidable (∀ d ∈ listing disassembler bytes functions, _))

section

variable {reader : ObjectReader} {disassembler : Disassembler} {bytes : ByteArray} {image : Image}
  {f : FunctionSymbol} {extent : FunctionExtent} {functions : List FunctionSymbol}

theorem fits_of_extent (hf : f ∈ functionSymbols image bytes.size) (h : f.extent? = some extent) :
    (codeOf bytes f).length = f.stop - f.start ∧
      f.entry.toNat + (codeOf bytes f).length < UInt64.size := by
  obtain ⟨-, hfile, -⟩ := bounds_of_mem hf
  obtain ⟨-, hstop⟩ := extent_bounds hf h
  have hword := extent.stop.toNat_lt_size
  have hlength := length_codeOf hfile
  exact ⟨hlength, by omega⟩

theorem own_inside (consecutive : ∀ code entry, Consecutive code entry (disassembler code entry))
    (hf : f ∈ functionSymbols image bytes.size) (h : f.extent? = some extent) :
    ∀ d ∈ own disassembler bytes f, f.Covers d.address := by
  obtain ⟨hlength, hfits⟩ := fits_of_extent hf h
  intro d hd
  have hinside := (consecutive (codeOf bytes f) f.entry).address_inside hfits d hd
  rwa [hlength, ← UInt64.le_iff_toNat_le] at hinside

theorem ascending_own (consecutive : ∀ code entry, Consecutive code entry (disassembler code entry))
    (hf : f ∈ functionSymbols image bytes.size) (h : f.extent? = some extent) :
    Disassembly.Ascending ((own disassembler bytes f).map Disassembled.decode) := by
  obtain ⟨-, hfits⟩ := fits_of_extent hf h
  exact List.pairwise_map.2 ((consecutive (codeOf bytes f) f.entry).ascending hfits)

theorem body_eq_own_iff (extents : List FunctionExtent) (hf : f ∈ functions)
    (covers : ∀ address, f.Covers address ↔ extent.entry ≤ address ∧ address < extent.stop)
    (inside : ∀ d ∈ own disassembler bytes f, f.Covers d.address)
    (ascending : Disassembly.Ascending ((own disassembler bytes f).map Disassembled.decode)) :
    (programOf extents (listing disassembler bytes functions)).body extent =
        (own disassembler bytes f).map Disassembled.decode ↔
      Undisturbed disassembler bytes functions f := by
  constructor
  · intro heq d _ hlast hcovers
    rw [← heq]
    exact mem_body_programOf.2 ⟨d, hlast, rfl, (covers _).1 hcovers⟩
  · intro h
    have hkept := Disassembly.ascending_body
      (sound_programOf extents (listing disassembler bytes functions)) extent
    refine hkept.eq_of_mem_iff ascending fun d => ⟨fun hd => ?_, fun hd => ?_⟩
    · obtain ⟨e, hlast, rfl, hcovers⟩ := mem_body_programOf.1 hd
      exact h e (mem_of_last? hlast) hlast ((covers _).2 hcovers)
    · -- What is kept at the address of an own instruction is an own one, so it is the same.
      obtain ⟨e, he, rfl⟩ := List.mem_map.1 hd
      obtain ⟨kept, hlast, haddress⟩ := last?_of_mem (List.mem_flatMap_of_mem hf he)
      have hcovers := inside e he
      rw [← haddress] at hlast hcovers
      have hown := h kept (mem_of_last? hlast) hlast hcovers
      rw [← ascending.eq_of_address hown hd haddress]
      exact mem_body_programOf.2 ⟨kept, hlast, rfl, (covers _).1 hcovers⟩

theorem undisturbed_iff {p : Disassembly}
    (consecutive : ∀ code entry, Consecutive code entry (disassembler code entry))
    (himage : reader bytes = some (.elf image)) (hp : disassemble reader disassembler bytes = .ok p)
    (hf : f ∈ functionSymbols image bytes.size) (h : f.extent? = some extent) :
    Undisturbed disassembler bytes (functionSymbols image bytes.size) f ↔
      p.body extent = (own disassembler bytes f).map Disassembled.decode := by
  rw [(disassemble_ok himage hp).2]
  exact (body_eq_own_iff p.functions hf (fun _ => covers_iff hf h) (own_inside consecutive hf h)
    (ascending_own consecutive hf h)).symm

/-- A function is undisturbed if no other one has an address of its range. -/
theorem undisturbed_of_disjoint
    {p : Disassembly}
    (consecutive : ∀ code entry, Consecutive code entry (disassembler code entry))
    (himage : reader bytes = some (.elf image)) (hp : disassemble reader disassembler bytes = .ok p)
    (hdisjoint : ∀ g ∈ functionSymbols image bytes.size, g ≠ f →
      ∀ address, g.Covers address → ¬ f.Covers address) :
    Undisturbed disassembler bytes (functionSymbols image bytes.size) f := by
  intro d hd _ hcovers
  obtain ⟨g, hg, hd⟩ := List.mem_flatMap.1 hd
  by_cases hgf : g = f
  · exact List.mem_map_of_mem (hgf ▸ hd)
  · obtain ⟨extent, -, hextent⟩ := extent_of_mem (disassemble_ok himage hp).1 hg
    exact absurd hcovers
      (hdisjoint g hg hgf d.address (own_inside consecutive hg hextent d hd))

end

/-! ## A function in another -/

/-- Knows three instructions and stops at any other. -/
def simpleDisassembler : Disassembler
  | [], _ => []
  | 0x90 :: rest, entry =>
    ⟨entry, [0x90], "nop", "", false, false, false, []⟩ :: simpleDisassembler rest (entry + 1)
  | 0xc3 :: rest, entry =>
    ⟨entry, [0xc3], "ret", "", false, false, true, []⟩ :: simpleDisassembler rest (entry + 1)
  | 0xb8 :: a :: b :: c :: d :: rest, entry =>
    let value := a.toNat + 256 * (b.toNat + 256 * (c.toNat + 256 * d.toNat))
    ⟨entry, [0xb8, a, b, c, d], "mov", "eax, 0x" ++ Text.hexPadded 1 value, false, false, false,
      [.immediate value]⟩ :: simpleDisassembler rest (entry + 5)
  | _, _ => []

theorem consecutive_simpleDisassembler (code : List UInt8) (entry : UInt64) :
    Consecutive code entry (simpleDisassembler code entry) := by
  fun_induction simpleDisassembler code entry with
  | case1 entry => exact .stop [] entry
  | case2 rest entry ih => exact .next rfl (List.cons_ne_nil _ _) (List.prefix_append [0x90] rest) ih
  | case3 rest entry ih => exact .next rfl (List.cons_ne_nil _ _) (List.prefix_append [0xc3] rest) ih
  | case4 a b c d rest entry value ih =>
    exact .next rfl (List.cons_ne_nil _ _) (List.prefix_append [0xb8, a, b, c, d] rest) ih
  | case5 code entry => exact .stop code entry

/-- A `mov` whose immediate operand holds a `ret`. -/
def sampleCode : List UInt8 := [0xb8, 0xc3, 0x90, 0x90, 0x90, 0xc3, 0x90, 0x90]

/-- The `mov` is a function, and so is the `ret` in it. -/
def nested : ByteArray := fileWith 4096 sampleCode [(1, 4096, 5), (3, 4097, 1)]

def single : ByteArray := fileWith 4096 sampleCode [(3, 4097, 1)]

def nestedImage : Image := imageWith 4096 8 [⟨"f", 18, 1, 4096, 5⟩, ⟨"g", 18, 1, 4097, 1⟩]

def singleImage : Image := imageWith 4096 8 [⟨"g", 18, 1, 4097, 1⟩]

theorem read_nested : standardReader nested = some (.elf nestedImage) := by
  decide +kernel

theorem read_single : standardReader single = some (.elf singleImage) := by
  decide +kernel

theorem disassembles_nested :
    ∃ p, disassemble standardReader simpleDisassembler nested = .ok p :=
  (exists_disassemble_iff read_nested).2 ⟨rfl, by decide +kernel⟩

theorem disassembles_single :
    ∃ p, disassemble standardReader simpleDisassembler single = .ok p :=
  (exists_disassemble_iff read_single).2 ⟨rfl, by decide +kernel⟩

/-! ## What functions show -/

/-- A function shows its own instructions exactly if it is undisturbed. Its signature, blocks and
dump then are the same in every file that has this code. -/
theorem undisturbed_iff_shows_own {reader : ObjectReader} {disassembler : Disassembler}
    (consecutive : ∀ code entry, Consecutive code entry (disassembler code entry))
    {bytes : ByteArray} {image : Image} {p : Disassembly}
    (himage : reader bytes = some (.elf image))
    (hp : disassemble reader disassembler bytes = .ok p) :
    (functionSymbols image bytes.size).map FunctionSymbol.extent? = p.functions.map some ∧
      ∀ f ∈ functionSymbols image bytes.size, ∃ extent ∈ p.functions, f.extent? = some extent ∧
        (Undisturbed disassembler bytes (functionSymbols image bytes.size) f ↔
          p.decodedIn extent.entry extent.stop =
            (own disassembler bytes f).map Disassembled.decode) ∧
        (Undisturbed disassembler bytes (functionSymbols image bytes.size) f →
          p.instructionsIn extent.entry extent.stop =
              (own disassembler bytes f).map Disassembled.instruction ∧
            ∀ (bytes' : ByteArray) (image' : Image) (p' : Disassembly) (f' : FunctionSymbol),
              reader bytes' = some (.elf image') →
              disassemble reader disassembler bytes' = .ok p' →
              f' ∈ functionSymbols image' bytes'.size →
              f'.extent? = some extent → codeOf bytes' f' = codeOf bytes f →
              Undisturbed disassembler bytes' (functionSymbols image' bytes'.size) f' →
                Signature.ofFunction p'.view extent = Signature.ofFunction p.view extent ∧
                p'.blocksOf extent = p.blocksOf extent ∧
                dumpFunction p'.view extent = dumpFunction p.view extent) := by
  obtain ⟨hextents, hprogram⟩ := disassemble_ok himage hp
  refine ⟨hextents, fun f hf => ?_⟩
  obtain ⟨extent, hmem, hextent⟩ := extent_of_mem hextents hf
  have hiff := undisturbed_iff consecutive himage hp hf hextent
  refine ⟨extent, hmem, hextent, hiff, fun hown => ⟨?_, ?_⟩⟩
  · have hbody : p.decodedIn extent.entry extent.stop = _ := hiff.1 hown
    unfold Disassembly.instructionsIn
    rw [hbody, List.map_map]
    rfl
  · intro bytes' image' p' f' himage' hp' hf' hextent' hcode hown'
    have hentry : f'.entry = f.entry :=
      (extent_bounds hf' hextent').1.symm.trans (extent_bounds hf hextent).1
    have hsame : own disassembler bytes' f' = own disassembler bytes f := by
      unfold own
      rw [hcode, hentry]
    have hbody : p'.body extent = p.body extent := by
      rw [hiff.1 hown, ← hsame]
      exact (undisturbed_iff consecutive himage' hp' hf' hextent').1 hown'
    have hsound : p.Sound := hprogram ▸ sound_programOf _ _
    have hsound' : p'.Sound := (disassemble_ok himage' hp').2 ▸ sound_programOf _ _
    exact ⟨Disassembly.ofFunction_congr hsound' hsound hbody,
      congrArg (blocksOfBody extent) hbody,
      Disassembly.dumpFunction_congr hsound' hsound hbody⟩

theorem undisturbed_iff_shows_own_nested :
    ∃ p p', disassemble standardReader simpleDisassembler nested = .ok p ∧
      disassemble standardReader simpleDisassembler single = .ok p' ∧
      p.instructionsIn 4097 4098 = [⟨4097, [0xc3], "ret"⟩] ∧
      Signature.ofFunction p'.view ⟨"g", 4097, 4098⟩ =
        Signature.ofFunction p.view ⟨"g", 4097, 4098⟩ ∧
      p'.blocksOf ⟨"g", 4097, 4098⟩ = p.blocksOf ⟨"g", 4097, 4098⟩ ∧
      dumpFunction p'.view ⟨"g", 4097, 4098⟩ = dumpFunction p.view ⟨"g", 4097, 4098⟩ := by
  obtain ⟨p, hp⟩ := disassembles_nested
  obtain ⟨p', hp'⟩ := disassembles_single
  obtain ⟨extent, -, hextent, -, hshows⟩ :=
    (undisturbed_iff_shows_own consecutive_simpleDisassembler read_nested hp).2
      ⟨"g", 4097, 65, 66⟩ (by decide +kernel)
  obtain rfl : ⟨"g", 4097, 4098⟩ = extent := Option.some.inj hextent
  obtain ⟨hown, hsame⟩ := hshows (by decide +kernel)
  have hret : p.instructionsIn 4097 4098 = [⟨4097, [0xc3], "ret"⟩] :=
    hown.trans (by decide +kernel)
  exact ⟨p, p', hp, hp', hret,
    hsame single singleImage p' ⟨"g", 4097, 65, 66⟩ read_single hp' (by decide +kernel) rfl
      (by decide +kernel) (by decide +kernel)⟩

/-- A function may show an instruction of another one behind its own. -/
theorem shows_code_of_nested :
    ¬ ∀ (reader : ObjectReader) (disassembler : Disassembler),
      (∀ code entry, Consecutive code entry (disassembler code entry)) →
        ∀ (bytes : ByteArray) (image : Image) (p : Disassembly),
          reader bytes = some (.elf image) → disassemble reader disassembler bytes = .ok p →
            ∀ f ∈ functionSymbols image bytes.size, ∀ extent, f.extent? = some extent →
              p.instructionsIn extent.entry extent.stop =
                (own disassembler bytes f).map Disassembled.instruction := by
  intro h
  obtain ⟨p, hp⟩ := disassembles_nested
  have hshows := h standardReader simpleDisassembler consecutive_simpleDisassembler nested
    nestedImage p read_nested hp ⟨"f", 4096, 64, 69⟩ (by decide +kernel) ⟨"f", 4096, 4101⟩
    (by decide +kernel)
  rw [(disassemble_ok read_nested hp).2] at hshows
  change (programOf [] _).instructionsIn 4096 4101 = _ at hshows
  revert hshows
  decide +kernel

end CrateTrace.Elf
