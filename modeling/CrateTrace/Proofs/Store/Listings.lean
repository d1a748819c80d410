import CrateTrace.Proofs.Store.Readings
import Mathlib.Data.List.Pairwise
import Mathlib.Data.String.Basic

/-!
# The order of listings

Functions and links are listed by address, links by binary first. Addresses are stored as signed
numbers. Main statement: a listing gives each of its rows once, the addresses from `2 ^ 63` on in
front of the others, so that it is in order just if its addresses do not lie in both halves.
-/

namespace CrateTrace.Store

/-! ## Stored addresses -/

def inUpperHalf (address : UInt64) : Bool := 2 ^ 63 ≤ address.toNat

/-- The upper half comes first. -/
def StoredLe (a b : UInt64) : Prop :=
  if inUpperHalf a = inUpperHalf b then a ≤ b else inUpperHalf a = true

def InOneHalf (addresses : List UInt64) : Prop :=
  ∀ a ∈ addresses, ∀ b ∈ addresses, inUpperHalf a = inUpperHalf b

theorem signedAddress_eq (address : UInt64) :
    signedAddress address =
      if inUpperHalf address then (address.toNat : Int) - UInt64.size else address.toNat := by
  have hsigned : signedAddress address = address.toBitVec.toInt := rfl
  have hnat : address.toBitVec.toNat = address.toNat := rfl
  rw [hsigned, BitVec.toInt_eq_toNat_cond, hnat]
  simp only [inUpperHalf, decide_eq_true_eq, UInt64.size]
  split <;> split <;> omega

theorem signedAddress_le_iff (a b : UInt64) :
    signedAddress a ≤ signedAddress b ↔ StoredLe a b := by
  have ha := a.toNat_lt
  have hb := b.toNat_lt
  rw [signedAddress_eq, signedAddress_eq, StoredLe, UInt64.le_iff_toNat_le]
  simp only [inUpperHalf, decide_eq_true_eq, decide_eq_decide, UInt64.size]
  split <;> split <;> split <;> omega

theorem StoredLe.half_eq {a b : UInt64} (h : StoredLe a b) (hle : a ≤ b) :
    inUpperHalf a = inUpperHalf b := by
  by_contra hne
  have hupper : inUpperHalf a = true := by rwa [StoredLe, if_neg hne] at h
  rw [UInt64.le_iff_toNat_le] at hle
  simp only [inUpperHalf, decide_eq_true_eq, decide_eq_decide] at hne hupper
  omega

theorem StoredLe.le {a b : UInt64} (h : StoredLe a b) (hhalf : inUpperHalf a = inUpperHalf b) :
    a ≤ b := by
  rwa [StoredLe, if_pos hhalf] at h

theorem pairwise_le_iff {addresses : List UInt64} (h : addresses.Pairwise StoredLe) :
    addresses.Pairwise (· ≤ ·) ↔ InOneHalf addresses := by
  constructor
  · intro hle
    have hhalf : addresses.Pairwise fun a b => inUpperHalf a = inUpperHalf b :=
      (h.and hle).imp fun hab => hab.1.half_eq hab.2
    have hsymm : Std.Symm fun a b => inUpperHalf a = inUpperHalf b := ⟨fun _ _ h => h.symm⟩
    intro a ha b hb
    exact hhalf.forall_of_forall (R := fun a b => inUpperHalf a = inUpperHalf b)
      (fun _ _ => rfl) ha hb
  · exact fun hhalf => h.imp_of_mem fun ha hb hab => hab.le (hhalf _ ha _ hb)

/-! ## Links -/

/-- By binary, and then by address in some order. -/
def ByBinary (le : UInt64 → UInt64 → Prop) (a b : Link) : Prop :=
  a.binary < b.binary ∨ a.binary = b.binary ∧ le a.address b.address

theorem ByBinary.on_binary {le : UInt64 → UInt64 → Prop} {links : List Link}
    (h : links.Pairwise (ByBinary le)) (binary : String) :
    ((links.filter (·.binary == binary)).map (·.address)).Pairwise le := by
  rw [List.pairwise_map]
  refine (h.filter _).imp_of_mem fun {a b} ha hb hab => ?_
  have hbinary : a.binary = b.binary := by
    rw [beq_iff_eq.mp (List.mem_filter.mp ha).2, beq_iff_eq.mp (List.mem_filter.mp hb).2]
  rcases hab with hlt | ⟨-, hle⟩
  · exact absurd (hbinary ▸ hlt) (lt_irrefl _)
  · exact hle

theorem byBinary_le_iff {links : List Link} (h : links.Pairwise (ByBinary StoredLe)) :
    links.Pairwise (ByBinary (· ≤ ·)) ↔
      ∀ binary, InOneHalf ((links.filter (·.binary == binary)).map (·.address)) := by
  constructor
  · exact fun hle binary =>
      (pairwise_le_iff (ByBinary.on_binary h binary)).mp (ByBinary.on_binary hle binary)
  · refine fun hhalf => h.imp_of_mem fun {a b} ha hb hab => hab.imp id fun ⟨hbinary, hle⟩ => ?_
    refine ⟨hbinary, hle.le (hhalf b.binary _ ?_ _ ?_)⟩
    · exact List.mem_map_of_mem (List.mem_filter.mpr ⟨ha, by simpa using hbinary⟩)
    · exact List.mem_map_of_mem (List.mem_filter.mpr ⟨hb, by simp⟩)

/-! ## Sorted rows -/

theorem addressLe_iff (a b : Row BinaryColumns) :
    addressLe a b = true ↔ signedAddress a.value.address ≤ signedAddress b.value.address := by
  simp [addressLe]

theorem binaryLe_iff (a b : Row BinaryColumns) :
    binaryLe a b = true ↔ a.value.binary < b.value.binary ∨ a.value.binary = b.value.binary ∧
      signedAddress a.value.address ≤ signedAddress b.value.address := by
  simp [binaryLe, addressLe_iff]

theorem pairwise_addressLe (rows : List (Row BinaryColumns)) :
    (rows.mergeSort addressLe).Pairwise fun a b => StoredLe a.value.address b.value.address := by
  have hsorted : (rows.mergeSort addressLe).Pairwise fun a b => addressLe a b = true := by
    refine List.pairwise_mergeSort (fun a b c hab hbc => ?_) (fun a b => ?_) rows
    · rw [addressLe_iff] at hab hbc ⊢
      exact le_trans hab hbc
    · rw [Bool.or_eq_true, addressLe_iff, addressLe_iff]
      exact le_total _ _
  refine hsorted.imp fun {a b} hab => ?_
  rwa [addressLe_iff, signedAddress_le_iff] at hab

theorem pairwise_binaryLe (rows : List (Row BinaryColumns)) :
    (rows.mergeSort binaryLe).Pairwise fun a b => binaryLe a b = true := by
  refine List.pairwise_mergeSort (fun a b c hab hbc => ?_) (fun a b => ?_) rows
  · rw [binaryLe_iff] at hab hbc ⊢
    rcases hab with hab | ⟨hab, hle⟩ <;> rcases hbc with hbc | ⟨hbc, hle'⟩
    · exact .inl (lt_trans hab hbc)
    · exact .inl (hbc ▸ hab)
    · exact .inl (hab ▸ hbc)
    · exact .inr ⟨hab.trans hbc, le_trans hle hle'⟩
  · rw [Bool.or_eq_true, binaryLe_iff, binaryLe_iff]
    rcases lt_trichotomy a.value.binary b.value.binary with hlt | heq | hlt
    · exact .inl (.inl hlt)
    · exact (le_total _ _).imp (fun hle => .inr ⟨heq, hle⟩) fun hle => .inr ⟨heq.symm, hle⟩
    · exact .inr (.inl hlt)

theorem linkOf?_place {s : Store} {r : Row BinaryColumns} {link : Link}
    (h : s.linkOf? r = some link) :
    link.binary = r.value.binary ∧ link.address = r.value.address := by
  unfold linkOf? at h
  split at h
  · cases h
  · obtain ⟨source, -, rfl⟩ := Option.map_eq_some_iff.mp h
    exact ⟨rfl, rfl⟩

theorem BinaryColumns.function_address {c : BinaryColumns} {f : BinaryFunction}
    (h : c.function = .ok f) : f.address = c.address := by
  unfold BinaryColumns.function at h
  split at h
  · cases h
  · cases h
    rfl

theorem Row.isOk_mapM_eq {α β : Type} (f : α → Except StoreError β) (r : Row α) :
    (Row.mapM f r).isOk = (f r.value).isOk := by
  unfold Row.mapM
  cases f r.value <;> rfl

/-! ## Listings -/

/-- The functions that a listing is about. -/
def functionsIn (s : Store) (binary : String) (status : Option Status) :
    List (Row BinaryColumns) :=
  s.functions.rows.filter fun r => r.value.binary == binary && status.all r.value.hasStatus

/-- The links that a listing is about. -/
def linksInto (s : Store) (crate : Option String) : List Link :=
  (s.functions.rows.filterMap s.linkOf?).filter fun link => crate.all (link.crate == ·)

theorem binaryFunctions_error {s : Store} {binary : String} {status : Option Status}
    {e : StoreError} (h : s.binaryFunctions binary status = .error e) :
    ∃ r ∈ s.functionsIn binary status, r.value.function.isOk = false := by
  have hfails : (s.binaryFunctions binary status).isOk = false := by rw [h]; rfl
  unfold binaryFunctions functionsOf at hfails
  rw [isOk_mapM, List.all_eq_false] at hfails
  obtain ⟨r, hr, hunread⟩ := hfails
  rw [Row.isOk_mapM_eq, Bool.not_eq_true] at hunread
  exact ⟨r, List.mem_mergeSort.mp hr, hunread⟩

theorem pairwise_binaryFunctions {s : Store} {binary : String} {status : Option Status}
    {fs : List (Row BinaryFunction)} (h : s.binaryFunctions binary status = .ok fs) :
    (fs.map (·.value.address)).Pairwise StoredLe := by
  have haddresses : fs.map (·.value.address) =
      ((s.functionsIn binary status).mergeSort addressLe).map (·.value.address) :=
    map_eq_of_forall₂ (forall₂_of_mapM h) fun r f hf =>
      BinaryColumns.function_address (Row.mapM_ok hf).2
  rw [haddresses, List.pairwise_map]
  exact pairwise_addressLe _

theorem pairwise_listMatches (s : Store) (crate : Option String) :
    (s.listMatches crate).Pairwise (ByBinary StoredLe) := by
  have hlinks := (pairwise_binaryLe s.functions.rows).filterMap (S := ByBinary StoredLe)
    s.linkOf? fun r r' hle link hlink link' hlink' => by
      obtain ⟨hbinary, haddress⟩ := linkOf?_place hlink
      obtain ⟨hbinary', haddress'⟩ := linkOf?_place hlink'
      rwa [binaryLe_iff, signedAddress_le_iff, ← hbinary, ← hbinary', ← haddress,
        ← haddress'] at hle
  exact hlinks.filter _

/-- Each function or link is listed once, those at addresses of the upper half of their binary
first. So the listing is in order of the addresses just if no binary has some in both halves. -/
theorem listings_by_address (s : Store) :
    (∀ binary status,
      match s.binaryFunctions binary status with
      | .error _ => ∃ r ∈ s.functionsIn binary status, r.value.function.isOk = false
      | .ok fs =>
        (∃ rows, rows.Perm (s.functionsIn binary status) ∧ functionsOf rows = .ok fs) ∧
          (fs.map (·.value.address)).Pairwise StoredLe ∧
          ((fs.map (·.value.address)).Pairwise (· ≤ ·) ↔
            InOneHalf (fs.map (·.value.address)))) ∧
      ∀ crate,
        (s.listMatches crate).Perm (s.linksInto crate) ∧
          (s.listMatches crate).Pairwise (ByBinary StoredLe) ∧
          ((s.listMatches crate).Pairwise (ByBinary (· ≤ ·)) ↔
            ∀ binary,
              InOneHalf (((s.listMatches crate).filter (·.binary == binary)).map (·.address))) := by
  constructor
  · intro binary status
    cases h : s.binaryFunctions binary status with
    | error e => exact binaryFunctions_error h
    | ok fs =>
      have hstored := pairwise_binaryFunctions h
      exact ⟨⟨_, List.mergeSort_perm _ _, h⟩, hstored, pairwise_le_iff hstored⟩
  · intro crate
    have hstored := s.pairwise_listMatches crate
    refine ⟨?_, hstored, byBinary_le_iff hstored⟩
    exact ((List.mergeSort_perm s.functions.rows binaryLe).filterMap s.linkOf?).filter _

/-- A function that is not linked. -/
def functionAt (address : UInt64) : BinaryFunction :=
  { crate := "app", name := "run", fullName := "app::run", kind := .normal "app", status := .ok,
    binary := "server", address, signature := "", matchedSource := none }

/-- An address of the upper half is listed in front of a smaller one. -/
theorem binaryFunctions_halves :
    ¬ ∀ (s : Store) (binary : String) (status : Option Status) (fs : List (Row BinaryFunction)),
      s.binaryFunctions binary status = .ok fs → (fs.map (·.value.address)).Pairwise (· ≤ ·) := by
  intro hall
  have hlisting : (((empty.addBinary ⟨"server", none⟩).addFunction 1
      (functionAt 0x8000000000000000)).addFunction 1 (functionAt 16)).binaryFunctions "server" none =
        .ok [⟨1, functionAt 0x8000000000000000⟩, ⟨2, functionAt 16⟩] := by
    rw [binaryFunctions, List.mergeSort_of_pairwise (by decide +kernel)]
    decide +kernel
  have hordered := hall _ _ _ _ hlisting
  revert hordered
  decide +kernel

end CrateTrace.Store
