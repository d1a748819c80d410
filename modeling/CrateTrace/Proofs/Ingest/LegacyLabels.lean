import CrateTrace.Proofs.Ingest.Extraction
import CrateTrace.Proofs.Mangling.Legacy
import CrateTrace.Proofs.Name.CratePrefix
import CrateTrace.Proofs.Name.Skeleton

/-!
# What is stored for labels in the older mangling

A function whose label is made from a path of identifiers is kept under this path, so that builds
which differ in the hashes of their labels leave the same functions.
-/

namespace CrateTrace

/-! ## Paths of identifiers -/

namespace Name

/-- An identifier that is no word of the grammar. -/
structure IsSegmentName (name : String) : Prop where
  identifier : isIdentifier name = true
  free : name ∉ ["as", "for", "impl"]

instance (name : String) : Decidable (IsSegmentName name) :=
  decidable_of_iff (isIdentifier name = true ∧ name ∉ ["as", "for", "impl"])
    ⟨fun ⟨identifier, free⟩ => ⟨identifier, free⟩, fun h => ⟨h.identifier, h.free⟩⟩

def Segment.ofName (name : String) : Segment := ⟨.name name, none⟩

def Declaration.ofNames (names : List String) : Declaration := ⟨names.map Segment.ofName, none⟩

theorem plainNames_ofNames (names : List String) :
    Segment.plainNames (names.map Segment.ofName) = names := by
  induction names with
  | nil => rfl
  | cons name names ih =>
    rw [List.map_cons, Segment.plainNames, ih]
    rfl

theorem skeletonPath_ofNames (names : List String) :
    Segment.skeletonPath (names.map Segment.ofName) = names.map Segment.ofName := by
  induction names with
  | nil => rfl
  | cons name names ih =>
    rw [List.map_cons, Segment.skeletonPath, ih]
    rfl

theorem wellFormedPath_ofNames {names : List String} (h : ∀ n ∈ names, IsSegmentName n) :
    WellFormedPath (names.map Segment.ofName) := by
  induction names with
  | nil => exact wellFormedPath_nil
  | cons name names ih =>
    rw [List.forall_mem_cons] at h
    obtain ⟨⟨hidentifier, hfree⟩, hmore⟩ := h
    have hfirst : WellFormedPath [Segment.ofName name] := by
      apply wellFormed_bare
      · exact ⟨hidentifier, hfree⟩
      · simp [SegmentKind.nested]
    exact wellFormedPath_append.2 ⟨hfirst, ih hmore⟩

theorem parse_joinPath {names : List String} (hne : names ≠ [])
    (h : ∀ n ∈ names, IsSegmentName n) :
    parse (joinPath names) = .ok (Declaration.ofNames names) := by
  have hpath : names.map Segment.ofName ≠ [] := by simpa using hne
  have hparse := parse_plainPath hpath (wellFormedPath_ofNames h)
  unfold plainPath at hparse
  rw [plainNames_ofNames, skeletonPath_ofNames] at hparse
  exact hparse

theorem symbolName_ofNames {names : List String} (hne : names ≠ []) :
    names.getLast? = some (Declaration.ofNames names).symbolName := by
  unfold Declaration.ofNames Declaration.symbolName
  rw [List.getLast?_eq_some_getLast hne, List.getLast?_map, List.getLast?_eq_some_getLast hne]
  rfl

theorem structuralKey_ofNames (crate : String) (names : List String) :
    (Declaration.ofNames (crate :: names)).structuralKey (some crate) = ⟨names, none⟩ := by
  have hkey := structuralKey_behind_crate crate (names.map Segment.ofName)
  rw [plainNames_ofNames] at hkey
  exact hkey

end Name

/-! ## Records -/

namespace Ingest

open Name Program Store Mangling

/-- What the record of a function with this path says. -/
structure NamedAfter (names : List String) (f : BinaryFunction) : Prop where
  fullName : f.fullName = joinPath names
  crate : names.head? = some f.crate
  name : names.getLast? = some f.name
  declares : Declares f.toFunction (.ofNames names)
  key : structuralKeyOf f.fullName f.crate = .ok ⟨names.tail, none⟩

theorem namedAfter_parsedFunction (wants : String → Bool) (binary : String) (address : UInt64)
    {names : List String} (hne : names ≠ []) (h : ∀ n ∈ names, IsSegmentName n)
    (entry : FunctionDump) :
    NamedAfter names
      (parsedFunction wants binary address (joinPath names) (.ofNames names) entry) := by
  have hparse := parse_joinPath hne h
  have hname := symbolName_ofNames hne
  cases names with
  | nil => exact absurd rfl hne
  | cons crate names =>
    constructor
    case fullName => rfl
    case crate => rfl
    case name => exact hname
    case declares => exact ⟨hparse, rfl, rfl⟩
    case key =>
      change structuralKeyOf (joinPath (crate :: names)) crate = .ok ⟨names, none⟩
      unfold structuralKeyOf
      rw [hparse, Except.map, structuralKey_ofNames]

variable {demangler : Demangler} {mark hash key : String} {names : List String} {address : UInt64}
  {entry : FunctionDump}

theorem functionOf?_legacyLabel (joins : JoinsElements demangler)
    (hmark : mark ∈ ["_ZN", "__ZN"]) (hne : names ≠ [])
    (hnames : ∀ n ∈ names, IsSegmentName n) (hhash : IsBuildHash hash) (hrust : entry.isRust = true)
    (hkey : SpellsAddress key address) (hlabel : entry.name = legacyLabel mark names hash)
    (wants : String → Bool) (binary : String) :
    functionOf? demangler wants binary key entry =
      some (parsedFunction wants binary address (joinPath names) (.ofNames names) entry) := by
  have hname : demangle demangler entry.name = .ok (joinPath names) := by
    rw [hlabel]
    exact demangle_legacyLabel joins hmark (fun n hn => (hnames n hn).identifier) hhash
  unfold functionOf?
  simp [hrust, addressOfKey?_of_spells hkey, hname, parse_joinPath hne hnames]

/-! ## Other builds -/

/-- The entry of a dump in two builds, with one hash and with another in its label. -/
inductive Rebuilt : String × FunctionDump → String × FunctionDump → Prop where
  | same (p : String × FunctionDump) : Rebuilt p p
  | rehashed {mark hash hash' : String} {names : List String} (key : String) (entry : FunctionDump)
      (hmark : mark ∈ ["_ZN", "__ZN"]) (hnames : ∀ n ∈ names, Name.isIdentifier n = true)
      (hhash : IsBuildHash hash) (hhash' : IsBuildHash hash') :
      Rebuilt (key, { entry with name := legacyLabel mark names hash })
        (key, { entry with name := legacyLabel mark names hash' })

theorem Rebuilt.functionOf?_eq (joins : JoinsElements demangler) {p p' : String × FunctionDump}
    (h : Rebuilt p p') (wants : String → Bool) (binary : String) :
    functionOf? demangler wants binary p.1 p.2 = functionOf? demangler wants binary p'.1 p'.2 := by
  cases h with
  | same => rfl
  | rehashed key entry hmark hnames hhash hhash' =>
    unfold functionOf?
    simp only [demangle_legacyLabel joins hmark hnames hhash,
      demangle_legacyLabel joins hmark hnames hhash']
    rfl

theorem functionsOfDump_rebuilt (joins : JoinsElements demangler) {dump dump' : Dump}
    (h : List.Forall₂ Rebuilt dump dump') (wants : String → Bool) (binary : String) :
    functionsOfDump demangler wants binary dump = functionsOfDump demangler wants binary dump' := by
  unfold functionsOfDump
  induction h with
  | nil => rfl
  | @cons p p' _ _ hp _ ih =>
    obtain ⟨key, entry⟩ := p
    obtain ⟨key', entry'⟩ := p'
    have hrecord : functionOf? demangler wants binary key entry =
        functionOf? demangler wants binary key' entry' :=
      hp.functionOf?_eq joins wants binary
    rw [List.filterMap_cons, List.filterMap_cons, ih]
    simp only [hrecord]

/-- The digests of the files differ as well, but they belong to the binary. -/
theorem ingestDump_rebuilt (joins : JoinsElements demangler) {dump dump' : Dump}
    (h : List.Forall₂ Rebuilt dump dump') (s : Store) (wants : String → Bool) (binary : Binary)
    (digest : Option String) (force : Bool) :
    (ingestDump demangler s wants binary dump force).1 =
        (ingestDump demangler s wants ⟨binary.name, digest⟩ dump' force).1 ∧
      (ingestDump demangler s wants binary dump force).2.functions =
        (ingestDump demangler s wants ⟨binary.name, digest⟩ dump' force).2.functions := by
  have hfunctions := functionsOfDump_rebuilt joins h wants binary.name
  have hlength := h.length_eq
  unfold ingestDump ensureBinary
  cases s.findBinary? binary.name with
  | none =>
    simp only [fillBinary_eq, hfunctions, hlength]
    exact ⟨rfl, rfl⟩
  | some row =>
    cases force with
    | true =>
      simp only [fillBinary_eq, hfunctions, hlength]
      exact ⟨rfl, rfl⟩
    | false => exact ⟨rfl, rfl⟩

/-! ## Stores -/

theorem mem_putFunctions {records : List BinaryFunction} {f : BinaryFunction} (h : f ∈ records)
    (s : Store) (binaryId : RowId) :
    ∃ r ∈ (putFunctions s binaryId records).functions.rows, r.value.function = .ok f := by
  obtain ⟨added, hrows, hvalues, -⟩ :=
    s.functions.rows_insertAll (records.map (.ofFunction binaryId))
  have hvalue : BinaryColumns.ofFunction binaryId f ∈ added.map Row.value := by
    rw [hvalues]
    exact List.mem_map_of_mem h
  obtain ⟨r, hr, hrow⟩ := List.mem_map.1 hvalue
  refine ⟨r, ?_, ?_⟩
  · unfold putFunctions
    rw [hrows]
    exact List.mem_append_right _ hr
  · rw [hrow]
    exact BinaryColumns.function_ofFunction binaryId f

theorem ingestDump_stores {wants : String → Bool} {binary : Binary} {dump : Dump} {f : BinaryFunction}
    (h : f ∈ functionsOfDump demangler wants binary.name dump) {s : Store} {force : Bool}
    (htaken : s.findBinary? binary.name = none ∨ force = true) :
    ∃ kept skipped s', ingestDump demangler s wants binary dump force = (.ingested kept skipped, s') ∧
      ∃ r ∈ s'.functions.rows, r.value.function = .ok f := by
  rcases ingestDump_cases s wants binary dump force with
    ⟨-, hend⟩ | ⟨row, -, -, hend⟩ | ⟨row, hrow, hforce, -⟩
  · exact ⟨_, _, _, hend, mem_putFunctions h _ _⟩
  · exact ⟨_, _, _, hend, mem_putFunctions h _ _⟩
  · rw [hrow, hforce] at htaken
    simp at htaken

/-- Whatever the project wants and whatever its store holds, an entry with such a label is kept under
its path, and other hashes leave the same functions. Of the demangler it is enough that it joins the
elements of labels. -/
theorem legacy_labels_are_stored (joins : JoinsElements demangler)
    (hmark : mark ∈ ["_ZN", "__ZN"]) (hne : names ≠ []) (hnames : ∀ n ∈ names, IsSegmentName n)
    (hhash : IsBuildHash hash) {dump : Dump}
    (hmem : (key, entry) ∈ dump) (hrust : entry.isRust = true) (hkey : SpellsAddress key address)
    (hlabel : entry.name = legacyLabel mark names hash) (s : Store) (wants : String → Bool)
    (binary : Binary) (force : Bool) :
    (∃ f, functionOf? demangler wants binary.name key entry = some f ∧ NamedAfter names f ∧
      f.binary = binary.name ∧ f.address = address ∧ f.signature = entry.signature ∧
      (s.findBinary? binary.name = none ∨ force = true →
        ∃ kept skipped s',
          ingestDump demangler s wants binary dump force = (.ingested kept skipped, s') ∧
          ∃ r ∈ s'.functions.rows, r.value.function = .ok f)) ∧
    ∀ (dump' : Dump) (digest : Option String), List.Forall₂ Rebuilt dump dump' →
      (ingestDump demangler s wants binary dump force).1 =
          (ingestDump demangler s wants ⟨binary.name, digest⟩ dump' force).1 ∧
        (ingestDump demangler s wants binary dump force).2.functions =
          (ingestDump demangler s wants ⟨binary.name, digest⟩ dump' force).2.functions := by
  have hrecord := functionOf?_legacyLabel joins hmark hne hnames hhash hrust hkey hlabel wants
    binary.name
  refine ⟨⟨_, hrecord, namedAfter_parsedFunction wants binary.name address hne hnames entry, rfl, rfl,
    rfl, ?_⟩, ?_⟩
  · intro htaken
    exact ingestDump_stores (List.mem_filterMap.2 ⟨(key, entry), hmem, hrecord⟩) htaken
  · intro dump' digest hrebuilt
    exact ingestDump_rebuilt joins hrebuilt s wants binary digest force

/-- The last identifier looks like a hash itself. -/
theorem legacy_labels_are_stored_sample :
    let names := ["app", "Long_enough_1", "h0"]
    let label := "__ZN3app13Long_enough_12h017h0123456789abcDEFE"
    let entry : FunctionDump := ⟨label, true, [], [(0, ["ret"])], "c3"⟩
    (∀ n ∈ names, IsSegmentName n) ∧ IsBuildHash "0123456789abcDEF" ∧ SpellsAddress "0x1F" 31 ∧
      label = legacyLabel "__ZN" names "0123456789abcDEF" ∧
      ∃ kept skipped s', ingestDump standard empty (fun _ => true) ⟨"b", none⟩ [("0x1F", entry)] false =
        (.ingested kept skipped, s') ∧
      ∃ r ∈ s'.functions.rows, ∃ f, r.value.function = .ok f ∧
        f.fullName = "app::Long_enough_1::h0" ∧ f.crate = "app" ∧ f.name = "h0" ∧
        f.kind = .method "app::Long_enough_1" ∧ f.address = 31 := by
  intro names label entry
  have hnames : ∀ n ∈ names, IsSegmentName n := by decide +kernel
  have hhash : IsBuildHash "0123456789abcDEF" := by decide +kernel
  have hkey : SpellsAddress "0x1F" 31 := ⟨['1', 'F'], 0, .inr rfl, by decide +kernel⟩
  have hlabel : label = legacyLabel "__ZN" names "0123456789abcDEF" := by decide +kernel
  obtain ⟨⟨f, -, hf, -, haddress, -, hstored⟩, -⟩ :=
    legacy_labels_are_stored joinsElements_standard (by simp) (List.cons_ne_nil _ _) hnames hhash
      (List.mem_singleton_self ("0x1F", entry)) rfl hkey hlabel empty (fun _ => true) ⟨"b", none⟩ false
  obtain ⟨kept, skipped, s', hend, r, hr, hrow⟩ := hstored (.inl rfl)
  have hcrate : some "app" = some f.crate := hf.crate
  have hname : some "h0" = some f.name := hf.name
  have hkind : f.kind = .method "app::Long_enough_1" := by
    rw [hf.declares.2.2]
    decide +kernel
  refine ⟨hnames, hhash, hkey, hlabel, kept, skipped, s', hend, r, hr, f, hrow, ?_, ?_, ?_, hkind,
    haddress⟩
  · rw [hf.fullName]
    decide +kernel
  · exact (Option.some.inj hcrate).symm
  · exact (Option.some.inj hname).symm

end Ingest

end CrateTrace
