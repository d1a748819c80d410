import CrateTrace.Elf.Extents
import CrateTrace.Elf.Reader
import CrateTrace.Proofs.Program.Body

/-!
# Disassembled images

The functions of an image have their code in the file. What a disassembler finds in all of them goes
into one table, where the last instruction found at an address stays.
-/

namespace CrateTrace.Elf

open Program

/-! ## Disassemblers -/

/-- The instructions follow one another from the first byte of the code on, as far as they go. -/
inductive Consecutive : List UInt8 → UInt64 → List Disassembled → Prop where
  | stop (code : List UInt8) (entry : UInt64) : Consecutive code entry []
  | next {code : List UInt8} {entry : UInt64} {d : Disassembled} {more : List Disassembled}
    (address : d.address = entry) (some : d.bytes ≠ []) (inside : d.bytes <+: code)
    (rest : Consecutive (code.drop d.bytes.length) (entry + UInt64.ofNat d.bytes.length) more) :
    Consecutive code entry (d :: more)

section

variable {code bytes : List UInt8} {entry : UInt64} {found : List Disassembled}

theorem toNat_behind (inside : bytes <+: code) (fits : entry.toNat + code.length < UInt64.size) :
    (entry + UInt64.ofNat bytes.length).toNat = entry.toNat + bytes.length := by
  have hlength := inside.length_le
  have hsize : UInt64.size = 2 ^ 64 := rfl
  rw [UInt64.toNat_add, UInt64.toNat_ofNat']
  omega

theorem toNat_stop_behind (inside : bytes <+: code)
    (fits : entry.toNat + code.length < UInt64.size) :
    (entry + UInt64.ofNat bytes.length).toNat + (code.drop bytes.length).length =
      entry.toNat + code.length := by
  have hlength := inside.length_le
  rw [toNat_behind inside fits, List.length_drop]
  omega

namespace Consecutive

theorem address_inside (h : Consecutive code entry found)
    (fits : entry.toNat + code.length < UInt64.size) :
    ∀ d ∈ found, entry.toNat ≤ d.address.toNat ∧ d.address.toNat < entry.toNat + code.length := by
  induction h with
  | stop => simp
  | @next code entry d more address some inside rest ih =>
    have hpos := List.length_pos_iff.2 some
    have hlength := inside.length_le
    have hbehind := toNat_behind inside fits
    have hstop := toNat_stop_behind inside fits
    intro e he
    rcases List.mem_cons.1 he with rfl | he
    · rw [address]
      omega
    · have hrest := ih (by omega) e he
      omega

theorem ascending (h : Consecutive code entry found)
    (fits : entry.toNat + code.length < UInt64.size) :
    found.Pairwise fun a b => a.address < b.address := by
  induction h with
  | stop => exact .nil
  | @next code entry d more address some inside rest ih =>
    have hpos := List.length_pos_iff.2 some
    have hbehind := toNat_behind inside fits
    have hstop := toNat_stop_behind inside fits
    refine List.pairwise_cons.2 ⟨fun e he => ?_, ih (by omega)⟩
    have hafter := (rest.address_inside (by omega) e he).1
    rw [address, UInt64.lt_iff_toNat_lt]
    omega

end Consecutive

end

/-! ## Function symbols -/

section

variable {image : Image} {f : FunctionSymbol} {fileSize : Nat}

theorem bounds_of_fileRange {address size : UInt64} {header : SectionHeader} {start stop : Nat}
    (h : fileRange? address size header fileSize = some (start, stop)) :
    start < stop ∧ stop ≤ fileSize ∧ stop ≤ maxWord := by
  unfold fileRange? at h
  split_ifs at h with hout
  dsimp only at h
  split_ifs at h with hnone
  cases h
  refine ⟨by omega, Nat.min_le_right _ _, ?_⟩
  exact (Nat.min_le_left _ _).trans (Nat.min_le_right _ _)

theorem of_mem_foldl_insertNew (candidates : List FunctionSymbol) {p : UInt64 × FunctionSymbol}
    (h : p ∈ candidates.foldl
      (fun table f => Keyed.insertNew Keyed.wordBefore f.entry f table) []) :
    p.2 ∈ candidates := by
  induction candidates using List.reverseRecOn with
  | nil => cases h
  | append_singleton candidates last ih =>
    rw [List.foldl_append] at h
    rw [List.mem_append, List.mem_singleton]
    rcases Keyed.of_mem_insertNew h with rfl | h
    · exact .inr rfl
    · exact .inl (ih h)

theorem of_mem_functionSymbols (h : f ∈ functionSymbols image fileSize) :
    ∃ symbol ∈ image.symbols, symbol.function? image fileSize = some f := by
  obtain ⟨p, hp, rfl⟩ := List.mem_map.1 h
  exact List.mem_filterMap.1 (of_mem_foldl_insertNew _ hp)

theorem range_of_mem (h : f ∈ functionSymbols image fileSize) :
    ∃ symbol ∈ image.symbols, ∃ header, symbol.isDefinedFunction = true ∧
      image.sections[symbol.sectionIndex]? = some header ∧ f.entry = symbol.value ∧
      fileRange? f.entry symbol.size header fileSize = some (f.start, f.stop) := by
  obtain ⟨symbol, hsymbol, hfunction⟩ := of_mem_functionSymbols h
  unfold Symbol.function? at hfunction
  split_ifs at hfunction with hdefined
  split at hfunction
  · cases hfunction
  · next header hheader =>
    obtain ⟨⟨start, stop⟩, hrange, rfl⟩ := Option.map_eq_some_iff.1 hfunction
    exact ⟨symbol, hsymbol, header, hdefined, hheader, rfl, hrange⟩

theorem bounds_of_mem (h : f ∈ functionSymbols image fileSize) :
    f.start < f.stop ∧ f.stop ≤ fileSize ∧ f.stop ≤ maxWord := by
  obtain ⟨symbol, -, header, -, -, -, hrange⟩ := range_of_mem h
  exact bounds_of_fileRange hrange

/-- The sum of two words, when there is one, is not wrapped. -/
theorem toNat_plus? {a b sum : UInt64} (h : plus? a b = some sum) :
    sum.toNat = a.toNat + b.toNat := by
  unfold plus? at h
  split_ifs at h with hfits
  cases h
  rw [UInt64.toNat_add]
  exact Nat.mod_eq_of_lt hfits

theorem plus?_eq_none_iff {a b : UInt64} : plus? a b = none ↔ UInt64.size ≤ a.toNat + b.toNat := by
  simp [plus?]

theorem extent_bounds {extent : FunctionExtent} (hf : f ∈ functionSymbols image fileSize)
    (h : f.extent? = some extent) :
    extent.entry = f.entry ∧ extent.stop.toNat = f.entry.toNat + (f.stop - f.start) := by
  obtain ⟨-, -, hword⟩ := bounds_of_mem hf
  obtain ⟨stop, hstop, rfl⟩ := Option.map_eq_some_iff.1 h
  have hsize : UInt64.size = 2 ^ 64 := rfl
  unfold maxWord at hword
  refine ⟨rfl, ?_⟩
  rw [toNat_plus? hstop, UInt64.toNat_ofNat_of_lt' (by omega)]

/-- An address of the function, also if it runs over the end of the address space. -/
def FunctionSymbol.Covers (f : FunctionSymbol) (address : UInt64) : Prop :=
  f.entry ≤ address ∧ address.toNat < f.entry.toNat + (f.stop - f.start)

instance (f : FunctionSymbol) (address : UInt64) : Decidable (f.Covers address) :=
  inferInstanceAs (Decidable (_ ∧ _))

theorem covers_iff {extent : FunctionExtent} {address : UInt64}
    (hf : f ∈ functionSymbols image fileSize) (h : f.extent? = some extent) :
    f.Covers address ↔ extent.entry ≤ address ∧ address < extent.stop := by
  obtain ⟨hentry, hstop⟩ := extent_bounds hf h
  rw [hentry, UInt64.lt_iff_toNat_lt, hstop]
  rfl

end

theorem length_toListLoop (bytes : ByteArray) (i : Nat) (read : List UInt8) :
    (ByteArray.toList.loop bytes i read).length = read.length + (bytes.size - i) := by
  fun_induction ByteArray.toList.loop bytes i read with
  | case1 i read h ih =>
    rw [ih, List.length_cons]
    omega
  | case2 i read h =>
    rw [List.length_reverse]
    omega

theorem length_codeOf {bytes : ByteArray} {f : FunctionSymbol} (h : f.stop ≤ bytes.size) :
    (codeOf bytes f).length = f.stop - f.start := by
  unfold codeOf ByteArray.toList
  rw [length_toListLoop, ByteArray.size_extract, List.length_nil]
  omega

/-! ## Programs -/

/-- What the disassembler finds in the code of a function. -/
def own (disassembler : Disassembler) (bytes : ByteArray) (f : FunctionSymbol) : List Disassembled :=
  disassembler (codeOf bytes f) f.entry

def listing (disassembler : Disassembler) (bytes : ByteArray) (functions : List FunctionSymbol) :
    List Disassembled :=
  functions.flatMap (own disassembler bytes)

/-- The instruction that is kept of those found at an address. -/
def last? (found : List Disassembled) (address : UInt64) : Option Disassembled :=
  found.reverse.find? (·.address = address)

/-- The program of some functions and the instructions found in them. -/
def programOf (extents : List FunctionExtent) (found : List Disassembled) : Disassembly where
  functions := extents
  decoded := Keyed.ofPairs Keyed.wordBefore (found.map fun d => (d.address, d.decode))

section

variable {reader : ObjectReader} {disassembler : Disassembler} {bytes : ByteArray}
  {p q : Disassembly} {image : Image} {functions : List FunctionSymbol}
  {extents : List FunctionExtent} {found : List Disassembled}

theorem foldlM_addFunction_eq_some
    (h : functions.foldlM (addFunction? disassembler bytes) p = some q) :
    ∃ extents, functions.map FunctionSymbol.extent? = extents.map some ∧
      q = ⟨p.functions ++ extents,
        addDecoded p.decoded (listing disassembler bytes functions)⟩ := by
  -- Each step adds behind what is there, so the program made so far is general.
  induction functions generalizing p with
  | nil =>
    cases h
    exact ⟨[], rfl, by rw [List.append_nil]; rfl⟩
  | cons f functions ih =>
    rw [List.foldlM_cons] at h
    obtain ⟨next, hnext, h⟩ := Option.bind_eq_some_iff.1 h
    obtain ⟨extent, hextent, rfl⟩ := Option.map_eq_some_iff.1 hnext
    obtain ⟨extents, hextents, rfl⟩ := ih h
    refine ⟨extent :: extents, ?_, ?_⟩
    · rw [List.map_cons, List.map_cons, hextent, hextents]
    · unfold listing addDecoded own
      rw [List.flatMap_cons, List.foldl_append, List.append_assoc, List.singleton_append]

theorem foldlM_addFunction_eq_none_iff (disassembler : Disassembler) (bytes : ByteArray)
    (p : Disassembly) (functions : List FunctionSymbol) :
    functions.foldlM (addFunction? disassembler bytes) p = none ↔
      ∃ f ∈ functions, f.extent? = none := by
  induction functions generalizing p with
  | nil => simp
  | cons f functions ih =>
    rw [List.foldlM_cons, List.exists_mem_cons_iff]
    cases hextent : f.extent? with
    | none => simp [addFunction?, hextent]
    | some extent => simp [addFunction?, hextent, ih]

theorem extent_of_mem {f : FunctionSymbol}
    (h : functions.map FunctionSymbol.extent? = extents.map some) (hf : f ∈ functions) :
    ∃ extent ∈ extents, f.extent? = some extent := by
  have hmem := List.mem_map_of_mem (f := FunctionSymbol.extent?) hf
  rw [h] at hmem
  obtain ⟨extent, hextent, heq⟩ := List.mem_map.1 hmem
  exact ⟨extent, hextent, heq.symm⟩

/-- An image is refused, one of its functions has no extent, or the program of all its functions is
made. -/
theorem disassemble_cases (disassembler : Disassembler)
    (himage : reader bytes = some (.elf image)) :
    let functions := functionSymbols image bytes.size
    (image.machine ≠ x86_64 ∧
      ∃ reason, disassemble reader disassembler bytes = .error (.refused reason)) ∨
    (image.machine = x86_64 ∧ (∃ f ∈ functions, f.extent? = none) ∧
      disassemble reader disassembler bytes = .error .overflow) ∨
    (image.machine = x86_64 ∧ ∃ extents,
      functions.map FunctionSymbol.extent? = extents.map some ∧
      disassemble reader disassembler bytes =
        .ok (programOf extents (listing disassembler bytes functions))) := by
  intro functions
  unfold disassemble
  rw [himage]
  dsimp only
  by_cases hmachine : image.machine = x86_64
  · rw [if_neg (not_not.2 hmachine)]
    refine .inr ?_
    cases hfold : functions.foldlM (addFunction? disassembler bytes) ⟨[], []⟩ with
    | none => exact .inl ⟨hmachine, (foldlM_addFunction_eq_none_iff _ _ _ _).1 hfold, rfl⟩
    | some p =>
      obtain ⟨extents, hextents, rfl⟩ := foldlM_addFunction_eq_some hfold
      refine .inr ⟨hmachine, extents, hextents, ?_⟩
      unfold programOf Keyed.ofPairs addDecoded
      rw [List.foldl_map]
      rfl
  · rw [if_pos hmachine]
    exact .inl ⟨hmachine, _, rfl⟩

/-- What is disassembled is the program of the image's functions. -/
theorem disassemble_ok (himage : reader bytes = some (.elf image))
    (h : disassemble reader disassembler bytes = .ok p) :
    (functionSymbols image bytes.size).map FunctionSymbol.extent? = p.functions.map some ∧
      p = programOf p.functions
        (listing disassembler bytes (functionSymbols image bytes.size)) := by
  rcases disassemble_cases disassembler himage with
    ⟨-, _, heq⟩ | ⟨-, -, heq⟩ | ⟨-, extents, hextents, heq⟩
  · cases h.symm.trans heq
  · cases h.symm.trans heq
  · cases h.symm.trans heq
    exact ⟨hextents, rfl⟩

theorem disassemble_overflow_iff (himage : reader bytes = some (.elf image)) :
    disassemble reader disassembler bytes = .error .overflow ↔
      image.machine = x86_64 ∧ ∃ f ∈ functionSymbols image bytes.size, f.extent? = none := by
  rcases disassemble_cases disassembler himage with
    ⟨hmachine, _, heq⟩ | ⟨hmachine, hnone, heq⟩ | ⟨-, extents, hextents, heq⟩
  · simp [heq, hmachine]
  · exact iff_of_true heq ⟨hmachine, hnone⟩
  · refine iff_of_false (by simp [heq]) ?_
    rintro ⟨-, f, hf, hnone⟩
    obtain ⟨extent, -, hextent⟩ := extent_of_mem hextents hf
    cases hnone.symm.trans hextent

/-- A program is made of every image for this machine whose functions all have an extent. -/
theorem exists_disassemble_iff (himage : reader bytes = some (.elf image)) :
    (∃ p, disassemble reader disassembler bytes = .ok p) ↔
      image.machine = x86_64 ∧ ∀ f ∈ functionSymbols image bytes.size, f.extent? ≠ none := by
  rcases disassemble_cases disassembler himage with
    ⟨hmachine, _, heq⟩ | ⟨-, ⟨f, hf, hnone⟩, heq⟩ | ⟨hmachine, extents, hextents, heq⟩
  · simp [heq, hmachine]
  · refine iff_of_false (by simp [heq]) ?_
    rintro ⟨-, hall⟩
    exact hall f hf hnone
  · refine iff_of_true ⟨_, heq⟩ ⟨hmachine, ?_⟩
    intro f hf
    obtain ⟨extent, -, hextent⟩ := extent_of_mem hextents hf
    simp [hextent]

theorem mem_decoded_programOf {d : Decoded} {address : UInt64} :
    (address, d) ∈ (programOf extents found).decoded ↔
      ∃ e, last? found address = some e ∧ e.address = address ∧ e.decode = d := by
  unfold programOf last?
  rw [Keyed.mem_ofPairs_iff Keyed.isOrder_wordBefore, ← List.map_reverse, List.find?_map,
    Option.map_eq_some_iff]
  simp only [Prod.mk.injEq]
  rfl

theorem sound_programOf (extents : List FunctionExtent) (found : List Disassembled) :
    (programOf extents found).Sound where
  ordered := Keyed.ordered_ofPairs Keyed.isOrder_wordBefore _
  keys := by
    rintro ⟨address, d⟩ hd
    obtain ⟨e, -, rfl, rfl⟩ := mem_decoded_programOf.1 hd
    rfl

theorem mem_of_last? {address : UInt64} {d : Disassembled} (h : last? found address = some d) :
    d ∈ found :=
  List.mem_reverse.1 (List.mem_of_find?_eq_some h)

theorem last?_of_mem {d : Disassembled} (h : d ∈ found) :
    ∃ kept, last? found d.address = some kept ∧ kept.address = d.address := by
  have hsome : (last? found d.address).isSome :=
    List.find?_isSome.2 ⟨d, List.mem_reverse.2 h, decide_eq_true rfl⟩
  obtain ⟨kept, hkept⟩ := Option.isSome_iff_exists.1 hsome
  have haddress : kept.address = d.address := by
    unfold last? at hkept
    simpa using List.find?_some hkept
  exact ⟨kept, hkept, haddress⟩

theorem mem_body_programOf {extent : FunctionExtent} {d : Decoded} :
    d ∈ (programOf extents found).body extent ↔
      ∃ e, last? found e.address = some e ∧ e.decode = d ∧
        extent.entry ≤ e.address ∧ e.address < extent.stop := by
  unfold Disassembly.body
  rw [Disassembly.mem_decodedIn (sound_programOf extents found), mem_decoded_programOf]
  constructor
  · rintro ⟨⟨e, hlast, haddress, rfl⟩, hentry, hstop⟩
    exact ⟨e, haddress ▸ hlast, rfl, hentry, hstop⟩
  · rintro ⟨e, hlast, rfl, hentry, hstop⟩
    exact ⟨⟨e, hlast, rfl, rfl⟩, hentry, hstop⟩

end

/-! ## Small files -/

def numeral (width n : Nat) : List UInt8 :=
  (List.range width).map fun i => UInt8.ofNat (n / 256 ^ i)

/-- Numbers one after another, each in its width. -/
def numerals (fields : List (Nat × Nat)) : List UInt8 :=
  fields.flatMap fun (width, n) => numeral width n

def sectionBytes (kind address offset size link entrySize : Nat) : List UInt8 :=
  numerals [(4, 0), (4, kind), (8, 0), (8, address), (8, offset), (8, size), (4, link), (4, 0), (8, 1),
    (8, entrySize)]

def symbolBytes (name value size : Nat) : List UInt8 :=
  numerals [(4, name), (1, 18), (1, 0), (2, 1), (8, value), (8, size)]

/-- A file with code at an address. Function symbols are given by name, value and size; the names are
f at the place 1 and g at 3. -/
def fileWith (address : Nat) (code : List UInt8) (symbols : List (Nat × Nat × Nat)) : ByteArray :=
  let table := List.replicate 24 0 ++
    symbols.flatMap fun (name, value, size) => symbolBytes name value size
  let names := [0, 0x66, 0, 0x67, 0]
  let sections := 64 + code.length + table.length + names.length
  let header :=
    numerals [(2, 3), (2, x86_64), (4, 1), (8, 0), (8, 0), (8, sections), (4, 0), (2, 64), (2, 56),
      (2, 0), (2, 64), (2, 4), (2, 3)]
  let parts := [magic, [2, 1, 1], List.replicate 9 0, header, code, table, names,
    List.replicate 64 0, sectionBytes 1 address 64 code.length 0 0,
    sectionBytes symbolTable 0 (64 + code.length) table.length 3 24,
    sectionBytes 3 0 (64 + code.length + table.length) names.length 0 0]
  ⟨parts.flatten.toArray⟩

/-- What is read from such a file. -/
def imageWith (address : UInt64) (codeLength : Nat) (symbols : List Symbol) : Image where
  machine := x86_64
  sections :=
    let table := 24 * (symbols.length + 1)
    [⟨0, 0, 0, 0, 0, 0⟩, ⟨1, address, 64, UInt64.ofNat codeLength, 0, 0⟩,
      ⟨symbolTable, 0, UInt64.ofNat (64 + codeLength), UInt64.ofNat table, 3, 24⟩,
      ⟨3, 0, UInt64.ofNat (64 + codeLength + table), 5, 0, 0⟩]
  symbols := ⟨"", 0, 0, 0, 0⟩ :: symbols

end CrateTrace.Elf
