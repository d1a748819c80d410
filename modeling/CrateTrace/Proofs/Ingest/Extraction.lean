import CrateTrace.Mangling.Standard
import CrateTrace.Proofs.Ingest.Outcomes
import CrateTrace.Proofs.Signature.Relinking
import CrateTrace.Proofs.Store.Readings

/-!
# Dumps of programs that are taken in

What is written down of a program is read back: each Rust function, by its entry and with its
signature.
-/

namespace CrateTrace

open Mangling Name Program Store

/-! ## Hexadecimal keys -/

namespace Text

theorem mem_toDigits {n : Nat} {c : Char} (h : c ∈ Nat.toDigits 16 n) :
    ∃ d < 16, c = d.digitChar := by
  induction n using Nat.strongRecOn with
  | ind n ih =>
    rw [Nat.toDigits_eq_if (by decide)] at h
    split at h
    case isTrue hlt => exact ⟨n, hlt, List.mem_singleton.1 h⟩
    case isFalse hge =>
      rcases List.mem_append.1 h with h | h
      · exact ih (n / 16) (by omega) h
      · exact ⟨n % 16, Nat.mod_lt n (by decide), List.mem_singleton.1 h⟩

/-- Digits are lowercase, and neither of them is part of a mark. -/
theorem digitChar_plain : ∀ d < 16, d.digitChar.toLower = d.digitChar ∧ d.digitChar ≠ 'x' ∧
    d.digitChar ≠ '+' ∧ hexValue? d.digitChar = some d := by
  decide

theorem hexNumber?_append (digits more : List Char) :
    hexNumber? (digits ++ more) = (hexNumber? digits).bind fun n =>
      more.foldlM (fun n d => (hexValue? d).map (16 * n + ·)) n := by
  unfold hexNumber?
  rw [List.foldlM_append]
  rfl

theorem hexNumber?_toDigits (n : Nat) : hexNumber? (Nat.toDigits 16 n) = some n := by
  induction n using Nat.strongRecOn with
  | ind n ih =>
    rw [Nat.toDigits_eq_if (by decide)]
    split
    case isTrue hlt =>
      obtain ⟨-, -, -, hvalue⟩ := digitChar_plain n hlt
      simp [hexNumber?, hvalue]
    case isFalse hge =>
      obtain ⟨-, -, -, hvalue⟩ := digitChar_plain (n % 16) (Nat.mod_lt n (by decide))
      rw [hexNumber?_append, ih (n / 16) (by omega)]
      simp [hvalue, Nat.div_add_mod]

theorem hexNumber?_zeros (count : Nat) (digits : List Char) :
    hexNumber? (List.replicate count '0' ++ digits) = hexNumber? digits := by
  have hzeros : hexNumber? (List.replicate count '0') = some 0 := by
    induction count with
    | zero => rfl
    | succ count ih => exact ih
  rw [hexNumber?_append, hzeros]
  rfl

end Text

namespace Ingest

theorem withoutMarks_eq {digits : List Char} (h : 'x' ∉ digits) : withoutMarks digits = digits := by
  unfold withoutMarks
  split
  · simp at h
  · rfl

/-- A key in hex digits of either case, perhaps with zeros or a mark in front. -/
def SpellsAddress (key : String) (address : UInt64) : Prop :=
  ∃ digits zeros, (key.toList = digits ∨ key.toList = '0' :: 'x' :: digits) ∧
    digits.map Char.toLower = List.replicate zeros '0' ++ Nat.toDigits 16 address.toNat

theorem plain_of_lower {digits : List Char} {zeros n : Nat}
    (h : digits.map Char.toLower = List.replicate zeros '0' ++ Nat.toDigits 16 n) :
    ∀ c ∈ digits, c ≠ 'x' ∧ c ≠ '+' := by
  intro c hc
  have hlower : c.toLower ∈ digits.map Char.toLower := List.mem_map_of_mem hc
  rw [h] at hlower
  obtain ⟨d, hd, hdigit⟩ : ∃ d < 16, c.toLower = d.digitChar := by
    obtain hzero | hdigit := List.mem_append.1 hlower
    · exact ⟨0, by decide, List.eq_of_mem_replicate hzero⟩
    · exact Text.mem_toDigits hdigit
  obtain ⟨-, hx, hplus, -⟩ := Text.digitChar_plain d hd
  constructor <;> rintro rfl
  · exact hx hdigit.symm
  · exact hplus hdigit.symm

theorem addressOfKey?_of_spells {key : String} {address : UInt64} (h : SpellsAddress key address) :
    addressOfKey? key = some address := by
  obtain ⟨digits, zeros, hkey, hdigits⟩ := h
  have hplain := plain_of_lower hdigits
  have hmarks : withoutMarks key.toList = digits := by
    have hself : withoutMarks digits = digits := withoutMarks_eq fun hx => (hplain 'x' hx).1 rfl
    obtain hkey | hkey := hkey
    · rw [hkey, hself]
    · rw [hkey, withoutMarks, hself]
  have hvalue : Text.hexNumber? (digits.map Char.toLower) = some address.toNat := by
    rw [hdigits, Text.hexNumber?_zeros, Text.hexNumber?_toDigits]
  have hne : digits ≠ [] := by
    rintro rfl
    exact List.append_ne_nil_of_right_ne_nil _ Nat.toDigits_ne_nil hdigits.symm
  have hlt : address.toNat < UInt64.size := address.toNat_lt_size
  unfold addressOfKey?
  rw [hmarks]
  split
  · exact absurd rfl (hplain '+' List.mem_cons_self).2
  · simp only [hvalue, List.isEmpty_iff, hne, if_false, hlt, if_true, UInt64.ofNat_toNat]

theorem spellsAddress_entryKey (entry : UInt64) : SpellsAddress (entryKey entry) entry := by
  refine ⟨(entryKey entry).toList, 8 - (Nat.toDigits 16 entry.toNat).length, .inl rfl, ?_⟩
  have htext : (entryKey entry).toList =
      List.replicate (8 - (Nat.toDigits 16 entry.toNat).length) '0' ++ Nat.toDigits 16 entry.toNat :=
    String.toList_ofList
  rw [htext, List.map_append, List.map_replicate]
  have hlower : ∀ c ∈ Nat.toDigits 16 entry.toNat, c.toLower = c := by
    intro c hc
    obtain ⟨d, hd, rfl⟩ := Text.mem_toDigits hc
    exact (Text.digitChar_plain d hd).1
  rw [List.map_congr_left hlower, List.map_id']
  rfl

/-- A key is read as the entry that it was written for. -/
theorem addressOfKey?_entryKey (entry : UInt64) : addressOfKey? (entryKey entry) = some entry :=
  addressOfKey?_of_spells (spellsAddress_entryKey entry)

theorem entryKey_inj {a b : UInt64} (h : entryKey a = entryKey b) : a = b := by
  have hread := addressOfKey?_entryKey a
  rw [h, addressOfKey?_entryKey] at hread
  exact (Option.some.inj hread).symm

end Ingest

/-! ## The last of each entry -/

namespace Program

open Ingest

/-- The last function with this entry. -/
def lastAt? (view : View) (entry : UInt64) : Option FunctionExtent :=
  view.functions.reverse.find? (·.entry = entry)

/-- The functions that are written down, in the order of their keys. -/
def lastFunctions (view : View) : List FunctionExtent :=
  (Keyed.ofPairs Keyed.textBefore (view.functions.map fun f => (entryKey f.entry, f))).map Prod.snd

theorem keyed_lastFunctions (view : View) :
    Keyed.ofPairs Keyed.textBefore (view.functions.map fun f => (entryKey f.entry, f)) =
      (lastFunctions view).map fun f => (entryKey f.entry, f) := by
  unfold lastFunctions
  rw [List.map_map]
  conv_lhs => rw [← List.map_id (Keyed.ofPairs _ _)]
  apply List.map_congr_left
  intro p hp
  have hfound := (Keyed.mem_ofPairs_iff Keyed.isOrder_textBefore _).1 hp
  have hin := List.mem_reverse.1 (List.mem_of_find?_eq_some hfound)
  obtain ⟨f, -, rfl⟩ := List.mem_map.1 hin
  rfl

theorem dump_eq (view : View) :
    dump view = (lastFunctions view).map fun f => (entryKey f.entry, dumpFunction view f) := by
  have hpairs : (view.functions.map fun f => (entryKey f.entry, dumpFunction view f)) =
      (view.functions.map fun f => (entryKey f.entry, f)).map (Prod.map id (dumpFunction view)) := by
    rw [List.map_map]
    rfl
  unfold dump
  rw [hpairs, Keyed.ofPairs_map, keyed_lastFunctions, List.map_map]
  rfl

theorem mem_lastFunctions {view : View} {f : FunctionExtent} :
    f ∈ lastFunctions view ↔ lastAt? view f.entry = some f := by
  have hmem : f ∈ lastFunctions view ↔ (entryKey f.entry, f) ∈
      Keyed.ofPairs Keyed.textBefore (view.functions.map fun f => (entryKey f.entry, f)) := by
    rw [keyed_lastFunctions]
    constructor
    · exact fun hf => List.mem_map.2 ⟨f, hf, rfl⟩
    · intro hf
      obtain ⟨g, hg, heq⟩ := List.mem_map.1 hf
      obtain rfl : g = f := congrArg Prod.snd heq
      exact hg
  rw [hmem, Keyed.mem_ofPairs_iff Keyed.isOrder_textBefore, ← List.map_reverse, List.find?_map,
    lastAt?]
  have hkeys : ((fun p : String × FunctionExtent => decide (p.1 = entryKey f.entry)) ∘
      fun g => (entryKey g.entry, g)) = fun g => decide (g.entry = f.entry) := by
    funext g
    exact decide_eq_decide.2 ⟨entryKey_inj, congrArg entryKey⟩
  rw [hkeys]
  cases hfound : view.functions.reverse.find? fun g => decide (g.entry = f.entry) with
  | none => simp
  | some g =>
    have hentry : g.entry = f.entry := by simpa using List.find?_some hfound
    simp [hentry]

theorem nodup_entries (view : View) : ((lastFunctions view).map (·.entry)).Nodup := by
  have hkeys := (Keyed.ordered_ofPairs Keyed.isOrder_textBefore
    (view.functions.map fun f => (entryKey f.entry, f))).nodup_keys Keyed.isOrder_textBefore
  rw [keyed_lastFunctions, List.map_map] at hkeys
  refine List.Nodup.of_map entryKey ?_
  rw [List.map_map]
  exact hkeys

theorem length_lastFunctions (view : View) :
    (lastFunctions view).length = (view.functions.map (·.entry)).dedup.length := by
  have hlength := Keyed.length_ofPairs Keyed.isOrder_textBefore
    (view.functions.map fun f => (entryKey f.entry, f))
  rw [keyed_lastFunctions, List.length_map] at hlength
  have hkeys : (view.functions.map fun f => (entryKey f.entry, f)).map Prod.fst =
      (view.functions.map (·.entry)).map entryKey := by
    rw [List.map_map, List.map_map]
    rfl
  rw [hlength, hkeys, List.dedup_map_of_injective fun _ _ => entryKey_inj, List.length_map]

end Program

/-! ## What is taken in -/

namespace Ingest

variable {demangler : Demangler} {wants : String → Bool} {binary : String} {view : View}
  {f : FunctionExtent}

/-- A Rust symbol of whose name at least the crate can be told. -/
def IsReadable (demangler : Demangler) (symbol : String) : Prop :=
  hasMark symbol = true ∧ ∃ fullName, demangle demangler symbol = .ok fullName ∧
    ((parse fullName).isOk = true ∨ (leadingCrate? fullName).isSome = true)

theorem demangle_ne_unmarked {symbol : String} (h : hasMark symbol = true) (other : String) :
    demangle demangler symbol ≠ .error (.unmarked other) := by
  unfold demangle
  rw [if_pos h]
  split <;> simp

theorem isValid_signature (view : View) (f : FunctionExtent) :
    Signature.Pattern.isValid (Signature.ofFunction view f).text = true := by
  have hread : Signature.Pattern.ofText (Signature.ofFunction view f).text =
      .ok (Signature.ofFunction view f) := Signature.ofText_text (Signature.length_ofWindow _)
  unfold Signature.Pattern.isValid
  rw [hread]
  rfl

/-- The record of a function of a program, if there is one. -/
def extracted? (demangler : Demangler) (wants : String → Bool) (binary : String) (view : View)
    (f : FunctionExtent) : Option BinaryFunction :=
  functionOf? demangler wants binary (entryKey f.entry) (dumpFunction view f)

/-- What the record of a function of a program says. -/
structure Extracted (demangler : Demangler) (view : View) (f : FunctionExtent)
    (record : BinaryFunction) : Prop where
  name : demangle demangler f.name = .ok record.fullName
  address : record.address = f.entry
  signature : record.signature = (Signature.ofFunction view f).text
  status : record.status = .unknownFormat → ∀ d, parse record.fullName = .ok d → d.crateName = none

theorem isSome_extracted :
    (extracted? demangler wants binary view f).isSome = true ↔ IsReadable demangler f.name := by
  constructor
  · intro h
    obtain ⟨record, hrecord⟩ := Option.isSome_iff_exists.1 h
    obtain ⟨hmark, address, fullName, -, hname, hkept⟩ := functionOf_cases hrecord
    refine ⟨hmark, fullName, hname, ?_⟩
    rcases hkept with ⟨d, hparse, -⟩ | ⟨-, hrough⟩
    · exact .inl (by rw [hparse]; rfl)
    · obtain ⟨crate, hcrate, -⟩ := Option.map_eq_some_iff.1 hrough
      exact .inr (by rw [hcrate]; rfl)
  · rintro ⟨hmark, fullName, hname, hkept⟩
    have hrust : (dumpFunction view f).isRust = true := hmark
    have hname' : demangle demangler (dumpFunction view f).name = .ok fullName := hname
    unfold extracted? functionOf?
    simp only [hrust, hname', addressOfKey?_entryKey]
    cases hparse : parse fullName with
    | ok d => rfl
    | error e =>
      have hcrate : (leadingCrate? fullName).isSome = true := by
        refine hkept.resolve_left ?_
        rw [hparse]
        rintro ⟨⟩
      simp [unparsedFunction?, hcrate]

theorem crateName_of_unknownFormat {d : Declaration} {entry : FunctionDump}
    (hvalid : Signature.Pattern.isValid entry.signature = true)
    (h : statusOf wants d entry = .unknownFormat) : d.crateName = none := by
  unfold statusOf at h
  split at h
  · assumption
  · simp only [hvalid, Bool.not_true, Bool.false_eq_true, if_false] at h
    split_ifs at h

theorem extracted_of_some {record : BinaryFunction}
    (h : extracted? demangler wants binary view f = some record) :
    Extracted demangler view f record := by
  obtain ⟨hmark, address, fullName, haddress, hname, hkept⟩ := functionOf_cases h
  obtain rfl : f.entry = address := by
    rw [addressOfKey?_entryKey] at haddress
    exact Option.some.inj haddress
  have hsignature : (dumpFunction view f).signature = (Signature.ofFunction view f).text :=
    if_pos hmark
  rcases hkept with ⟨d, hparse, rfl⟩ | ⟨hparse, hrough⟩
  · refine ⟨hname, rfl, hsignature, fun hstatus d' hparse' => ?_⟩
    obtain rfl : d = d' := Except.ok.inj (hparse.symm.trans hparse')
    refine crateName_of_unknownFormat ?_ hstatus
    rw [hsignature]
    exact isValid_signature view f
  · obtain ⟨crate, -, rfl⟩ := Option.map_eq_some_iff.1 hrough
    refine ⟨hname, rfl, hsignature, fun _ d hparse' => ?_⟩
    rw [show parse fullName = .ok d from hparse'] at hparse
    cases hparse

theorem functionsOfDump_dump (wants : String → Bool) (binary : String) (view : View) :
    functionsOfDump demangler wants binary (dump view) =
      (lastFunctions view).filterMap (extracted? demangler wants binary view) := by
  unfold functionsOfDump
  rw [dump_eq, List.filterMap_map]
  rfl

theorem addresses_of_extracted (wants : String → Bool) (binary : String) (view : View) :
    (functionsOfDump demangler wants binary (dump view)).map (·.address) =
      ((lastFunctions view).filter fun f =>
        (extracted? demangler wants binary view f).isSome).map (·.entry) := by
  rw [functionsOfDump_dump]
  induction lastFunctions view with
  | nil => rfl
  | cons f fs ih =>
    cases hrecord : extracted? demangler wants binary view f with
    | none => simpa [hrecord] using ih
    | some record => simpa [hrecord, (extracted_of_some hrecord).address] using ih

theorem entry_of_lastAt {entry : UInt64} (h : lastAt? view entry = some f) : f.entry = entry := by
  simpa using List.find?_some h

theorem mem_addresses {entry : UInt64} :
    entry ∈ (functionsOfDump demangler wants binary (dump view)).map (·.address) ↔
      ∃ f, lastAt? view entry = some f ∧ IsReadable demangler f.name := by
  rw [addresses_of_extracted, List.mem_map]
  constructor
  · rintro ⟨f, hf, rfl⟩
    obtain ⟨hlast, hsome⟩ := List.mem_filter.1 hf
    exact ⟨f, mem_lastFunctions.1 hlast, isSome_extracted.1 hsome⟩
  · rintro ⟨f, hlast, hreadable⟩
    obtain rfl := entry_of_lastAt hlast
    exact ⟨f, List.mem_filter.2 ⟨mem_lastFunctions.2 hlast, isSome_extracted.2 hreadable⟩, rfl⟩

theorem nodup_addresses (wants : String → Bool) (binary : String) (view : View) :
    ((functionsOfDump demangler wants binary (dump view)).map (·.address)).Nodup := by
  rw [addresses_of_extracted]
  exact (nodup_entries view).sublist (List.filter_sublist.map _)

/-- What a row says of the last function with its address. -/
structure RowOf (demangler : Demangler) (view : View) (binary : String) (f : FunctionExtent)
    (row : BinaryColumns) : Prop where
  binary : row.binary = binary
  last : lastAt? view row.address = some f
  name : demangle demangler f.name = .ok row.fullName
  signature : row.signature = (Signature.ofFunction view f).text
  valid : Signature.Pattern.isValid row.signature = true
  status : row.hasStatus .unknownFormat = true →
    ∀ d, parse row.fullName = .ok d → d.crateName = none

theorem rowOf_of_mem {record : BinaryFunction}
    (h : record ∈ functionsOfDump demangler wants binary (dump view)) (binaryId : RowId) :
    ∃ f, RowOf demangler view binary f (.ofFunction binaryId record) := by
  have hbinary := (of_mem_functionsOfDump h).1
  rw [functionsOfDump_dump] at h
  obtain ⟨f, hf, hextracted⟩ := List.mem_filterMap.1 h
  obtain ⟨hname, haddress, hsignature, hstatus⟩ := extracted_of_some hextracted
  refine ⟨f, hbinary, ?_, hname, hsignature, ?_, fun hunknown => hstatus ?_⟩
  · change lastAt? view record.address = some f
    rw [haddress]
    exact mem_lastFunctions.1 hf
  · change Signature.Pattern.isValid record.signature = true
    rw [hsignature]
    exact isValid_signature view f
  · have hcode : (FunctionColumns.ofFunction record.toFunction).hasStatus .unknownFormat = true :=
      hunknown
    rw [FunctionColumns.hasStatus_ofFunction] at hcode
    exact of_decide_eq_true hcode

/-- From the program to the store of a project: there is one row for the last function of each entry,
if it has a readable Rust symbol, and none for others. -/
theorem extraction_is_read_back (demangler : Demangler) (view : View) (s : Store)
    (wants : String → Bool) {binary : Binary} (fresh : s.findBinary? binary.name = none)
    (force : Bool) :
    ∃ added skipped s',
      ingestDump demangler s wants binary (dump view) force = (.ingested added.length skipped, s') ∧
      s'.functions.rows = s.functions.rows ++ added ∧
      added.length + skipped = (view.functions.map (·.entry)).dedup.length ∧
      (added.map (·.value.address)).Nodup ∧
      (∀ entry, entry ∈ added.map (·.value.address) ↔
        ∃ f, lastAt? view entry = some f ∧ IsReadable demangler f.name) ∧
      (∀ r ∈ added, ∃ f, RowOf demangler view binary.name f r.value) ∧
      ∀ f, (dumpFunction view f).isRust = true →
        ∀ symbol, demangle demangler f.name ≠ .error (.unmarked symbol) := by
  have hend := ingestDump_of_fresh demangler fresh wants (dump view) force
  obtain ⟨added, hrows, hvalues, -⟩ := s.functions.rows_insertAll
    ((functionsOfDump demangler wants binary.name (dump view)).map (.ofFunction s.binaries.next))
  have hlength : added.length = (functionsOfDump demangler wants binary.name (dump view)).length := by
    rw [← List.length_map (f := Row.value), hvalues, List.length_map]
  have htotal : (dump view).length = (view.functions.map (·.entry)).dedup.length := by
    rw [dump_eq, List.length_map, length_lastFunctions]
  have hkept : (functionsOfDump demangler wants binary.name (dump view)).length ≤ (dump view).length :=
    List.length_filterMap_le _ _
  have haddresses : added.map (·.value.address) =
      (functionsOfDump demangler wants binary.name (dump view)).map (·.address) := by
    have hread := congrArg (List.map (·.address)) hvalues
    simpa [Function.comp_def, BinaryColumns.ofFunction] using hread
  rw [taken, ← hlength] at hend
  refine ⟨added, _, _, hend, hrows, ?_, ?_, ?_, ?_, ?_⟩
  · rw [hlength, ← htotal]
    omega
  · rw [haddresses]
    exact nodup_addresses wants binary.name view
  · intro entry
    rw [haddresses]
    exact mem_addresses
  · intro r hr
    obtain ⟨record, hrecord, hvalue⟩ := List.mem_map.1 (hvalues ▸ List.mem_map_of_mem hr)
    rw [← hvalue]
    exact rowOf_of_mem hrecord _
  · exact fun f hrust => demangle_ne_unmarked hrust

/-- Two symbols for one entry, and one that is not of Rust. -/
def sampleView : View :=
  { functions := [⟨"_ZN3app3run17h0123456789abcdefE", 16, 17⟩,
      ⟨"_ZN3app3fly17h0123456789abcdefE", 16, 17⟩, ⟨"main", 32, 33⟩]
    instructionsIn := fun start _ => [⟨start, [0xc3], "ret"⟩]
    blocksOf := fun _ => []
    referencesFrom := fun _ => [] }

theorem extraction_is_read_back_sample :
    empty.findBinary? "b" = none ∧ ∃ added skipped s',
      ingestDump standard empty (fun _ => true) ⟨"b", none⟩ (dump sampleView) false =
        (.ingested added.length skipped, s') ∧
      s'.functions.rows = added ∧ added.length + skipped = 2 ∧
      (∃ r ∈ added, r.value.address = 16 ∧ r.value.fullName = "app::fly" ∧
        r.value.signature = "c3" ++ String.ofList (List.replicate 62 '-')) ∧
      32 ∉ added.map (·.value.address) := by
  have fresh : empty.findBinary? (⟨"b", none⟩ : Binary).name = none := rfl
  obtain ⟨added, skipped, s', hend, hrows, hcount, -, haddresses, hrow, -⟩ :=
    extraction_is_read_back standard sampleView empty (fun _ => true) fresh false
  have hname : demangle standard "_ZN3app3fly17h0123456789abcdefE" = .ok "app::fly" := by
    decide +kernel
  have hfly : (16 : UInt64) ∈ added.map (·.value.address) := by
    rw [haddresses]
    exact ⟨_, rfl, by decide +kernel, _, hname, .inl (by decide +kernel)⟩
  have hmain : (32 : UInt64) ∉ added.map (·.value.address) := by
    rw [haddresses]
    rintro ⟨f, hf, hmark, -⟩
    cases hf
    revert hmark
    decide +kernel
  obtain ⟨r, hr, haddress⟩ := List.mem_map.1 hfly
  obtain ⟨f, row⟩ := hrow r hr
  have hlast := row.last
  rw [haddress] at hlast
  cases hlast
  refine ⟨fresh, added, skipped, s', hend, hrows, hcount.trans (by decide), ⟨r, hr, haddress, ?_, ?_⟩,
    hmain⟩
  · exact (Except.ok.inj (row.name.symm.trans hname))
  · rw [row.signature]
    decide +kernel

end Ingest

end CrateTrace
