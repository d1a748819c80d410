import CrateTrace.Program.Dump
import CrateTrace.Program.Flow
import CrateTrace.Proofs.Keyed
import Mathlib.Data.List.TakeWhile

/-!
# Bodies of functions

Blocks, signature and dump of a function of a disassembled program follow from the instructions in
its range alone.
-/

namespace CrateTrace.Program

open Signature

namespace Disassembly

variable {p p' : Disassembly} {f : FunctionExtent}

/-- Instructions are kept under their addresses. -/
structure Sound (p : Disassembly) : Prop where
  ordered : Keyed.Ordered Keyed.wordBefore p.decoded
  keys : ∀ entry ∈ p.decoded, entry.1 = entry.2.address

def body (p : Disassembly) (f : FunctionExtent) : List Decoded := p.decodedIn f.entry f.stop

theorem mem_decodedIn {start stop : UInt64} {d : Decoded} (h : p.Sound) :
    d ∈ p.decodedIn start stop ↔
      (d.address, d) ∈ p.decoded ∧ start ≤ d.address ∧ d.address < stop := by
  unfold decodedIn
  rw [List.mem_map]
  constructor
  · rintro ⟨⟨address, d⟩, hd, rfl⟩
    obtain ⟨hin, hrange⟩ := List.mem_filter.1 hd
    obtain rfl : address = d.address := h.keys _ hin
    exact ⟨hin, by simpa using hrange⟩
  · rintro ⟨hin, hstart, hstop⟩
    exact ⟨(d.address, d), List.mem_filter.2 ⟨hin, by simp [hstart, hstop]⟩, rfl⟩

/-- The addresses go up. -/
def Ascending (body : List Decoded) : Prop := body.Pairwise fun a b => a.address < b.address

theorem ascending_body (h : p.Sound) (f : FunctionExtent) : Ascending (p.body f) := by
  refine List.pairwise_map.2 ((h.ordered.filter _).imp_of_mem fun {a b} ha hb hab => ?_)
  rw [← h.keys a (List.mem_of_mem_filter ha), ← h.keys b (List.mem_of_mem_filter hb)]
  exact of_decide_eq_true hab

theorem Ascending.eq_of_mem_iff {body body' : List Decoded} (h : Ascending body)
    (h' : Ascending body') (hmem : ∀ d, d ∈ body ↔ d ∈ body') : body = body' := by
  have : Std.Irrefl fun a b : Decoded => a.address < b.address :=
    ⟨fun a => UInt64.lt_irrefl a.address⟩
  have : Std.Antisymm fun a b : Decoded => a.address < b.address :=
    ⟨fun a b hab hba => absurd hba (UInt64.lt_asymm hab)⟩
  exact List.Pairwise.eq_of_mem_iff h h' hmem

theorem Ascending.eq_of_address {body : List Decoded} (h : Ascending body) {a b : Decoded}
    (ha : a ∈ body) (hb : b ∈ body) (hab : a.address = b.address) : a = b := by
  have hnodup : (body.map Decoded.address).Nodup := List.pairwise_map.2 (h.imp UInt64.ne_of_lt)
  exact List.inj_on_of_nodup_map hnodup ha hb hab

theorem referencesFrom_of_mem (h : p.Sound) {d : Decoded} (hd : (d.address, d) ∈ p.decoded) :
    p.referencesFrom d.instruction = d.references := by
  have hfound : Keyed.find? d.address p.decoded = some d :=
    Keyed.find?_of_mem Keyed.isOrder_wordBefore h.ordered hd
  unfold referencesFrom
  unfold Decoded.address at hfound
  rw [hfound]

/-! ## Signatures -/

theorem windowLimit_le (f : FunctionExtent) : windowLimit f ≤ f.stop := by
  unfold windowLimit
  split
  case isTrue hlt =>
    have hstop := f.stop.toNat_lt
    rw [UInt64.le_iff_toNat_le, UInt64.toNat_add]
    omega
  case isFalse => exact UInt64.le_refl _

theorem decodedIn_windowLimit (h : p.Sound) (f : FunctionExtent) :
    p.decodedIn f.entry (windowLimit f) = (p.body f).filter (·.address < windowLimit f) := by
  have hlimit := windowLimit_le f
  unfold body decodedIn
  rw [List.filter_map, List.filter_filter]
  congr 1
  apply List.filter_congr
  rintro ⟨address, d⟩ hd
  obtain rfl : address = d.address := h.keys _ hd
  rw [Bool.eq_iff_iff]
  simp only [Bool.and_eq_true, decide_eq_true_eq, Function.comp_apply]
  constructor
  · rintro ⟨hentry, hlt⟩
    exact ⟨hlt, hentry, UInt64.lt_of_lt_of_le hlt hlimit⟩
  · rintro ⟨hlt, hentry, -⟩
    exact ⟨hentry, hlt⟩

theorem windowOf_view (h : p.Sound) (f : FunctionExtent) :
    windowOf p.view f = (p.decodedIn f.entry (windowLimit f)).map (·.instruction) := by
  refine List.takeWhile_eq_self_iff.2 fun i hi => ?_
  obtain ⟨d, hd, rfl⟩ := List.mem_map.1 hi
  obtain ⟨-, hentry, hlimit⟩ := (mem_decodedIn h).1 hd
  unfold Decoded.address at hentry hlimit
  simp [hentry, hlimit]

/-- The signature of a function with this body. -/
def signatureOfBody (f : FunctionExtent) (body : List Decoded) : Pattern :=
  ofWindow <| (body.filter (·.address < windowLimit f)).map fun d => (d.instruction, d.references)

theorem ofFunction_view (h : p.Sound) (f : FunctionExtent) :
    Signature.ofFunction p.view f = signatureOfBody f (p.body f) := by
  unfold Signature.ofFunction signatureOfBody
  rw [windowOf_view h, ← decodedIn_windowLimit h, List.map_map]
  congr 1
  apply List.map_congr_left
  intro d hd
  exact congrArg (Prod.mk d.instruction) (referencesFrom_of_mem h ((mem_decodedIn h).1 hd).1)

theorem ofFunction_congr (h : p.Sound) (h' : p'.Sound) (hbody : p.body f = p'.body f) :
    Signature.ofFunction p.view f = Signature.ofFunction p'.view f := by
  rw [ofFunction_view h, ofFunction_view h', hbody]

/-! ## Dumps -/

theorem dumpFunction_congr (h : p.Sound) (h' : p'.Sound) (hbody : p.body f = p'.body f) :
    dumpFunction p.view f = dumpFunction p'.view f := by
  have hblocks : p.view.blocksOf f = p'.view.blocksOf f := congrArg (blocksOfBody f) hbody
  unfold dumpFunction
  rw [hblocks, ofFunction_congr h h' hbody]

end Disassembly

end CrateTrace.Program
