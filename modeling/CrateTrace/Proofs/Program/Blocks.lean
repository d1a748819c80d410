import CrateTrace.Proofs.Program.Body

/-!
# Blocks of functions

The blocks of a function cut its instructions into runs. A block ends with a jump, with a return, or
in front of an instruction to which control may come from elsewhere. Main statement: the blocks are
the runs in the order of their addresses, and each goes on where its last instruction does.
-/

namespace CrateTrace.Program

/-! ## Block graphs -/

/-- Control may come to `address` from elsewhere: a jump goes there without leaving the function, or
a jump or a return stands right before. -/
def Entered (f : FunctionExtent) (body : List Decoded) (address : UInt64) : Prop :=
  ∃ d ∈ body,
    (∃ conditional, d.flow = .jump (some address) conditional ∧
      f.entry ≤ address ∧ address < f.stop) ∨
    (d.flow ≠ .next ∧ d.instruction.next = address)

/-- A block that is made of a run of instructions, of which only the last may be a jump or a return
and only the first may be one to which control comes from elsewhere. -/
structure Spans (entered : UInt64 → Prop) (index : Nat) (run : List Decoded) (b : BasicBlock) :
    Prop where
  index : b.index = index
  start : run.head?.map Decoded.address = some b.start
  instructions : b.instructions = run.map (·.instruction)
  stays : ∀ d ∈ run.dropLast, d.flow = .next
  whole : ∀ d ∈ run.tail, ¬ entered d.address

/-- Where a block goes on that ends with `last`, if `next?` is the block behind it. -/
inductive GoesOn (entered : UInt64 → Prop) (last : Decoded) (next? : Option BasicBlock) :
    List BlockEdge → Prop where
  | returns (leaves : last.flow = .return) : GoesOn entered last next? []
  | jumps {target : Option UInt64} (leaves : last.flow = .jump target false) :
      GoesOn entered last next? (target.toList.map fun t => ⟨t, false⟩)
  | branches {target : Option UInt64} (leaves : last.flow = .jump target true) :
      GoesOn entered last next?
        ((target.toList.map fun t => ⟨t, true⟩) ++ [⟨last.instruction.next, false⟩])
  | falls {next : BasicBlock} (stays : last.flow = .next) (behind : next? = some next)
      (reached : entered next.start) : GoesOn entered last next? [⟨next.start, false⟩]
  | ends (stays : last.flow = .next) (none : next? = none) : GoesOn entered last next? []

structure IsBlockGraph (f : FunctionExtent) (body : List Decoded) (blocks : List BasicBlock) :
    Prop where
  covers : blocks.flatMap (·.instructions) = body.map (·.instruction)
  ordered : (blocks.flatMap (·.instructions)).Pairwise fun i j => i.address < j.address
  ascending : blocks.Pairwise fun a b => a.start < b.start
  block : ∀ i b, blocks[i]? = some b → ∃ run last, run <:+: body ∧
    Spans (Entered f body) i run b ∧ run.getLast? = some last ∧
    GoesOn (Entered f body) last blocks[i + 1]? b.successors

/-! ## Cutting a body -/

variable {f : FunctionExtent} {body run rest : List Decoded} {blocks : List BasicBlock}
  {entered : UInt64 → Prop} {isLeader : UInt64 → Bool} {count : Nat} {d : Decoded} {b : BasicBlock}

/-- The blocks, numbered from `count` on, are the runs of a body. -/
inductive Cuts (entered : UInt64 → Prop) : Nat → List Decoded → List BasicBlock → Prop where
  | nil (count : Nat) : Cuts entered count [] []
  | cons {count : Nat} {run rest : List Decoded} {last : Decoded} {b : BasicBlock}
      {blocks : List BasicBlock} (spans : Spans entered count run b)
      (ends : run.getLast? = some last) (goesOn : GoesOn entered last blocks.head? b.successors)
      (more : Cuts entered (count + 1) rest blocks) :
      Cuts entered count (run ++ rest) (b :: blocks)

namespace Cuts

theorem covers (h : Cuts entered count body blocks) :
    blocks.flatMap (·.instructions) = body.map (·.instruction) := by
  induction h with
  | nil count => rfl
  | cons spans ends goesOn more ih =>
    rw [List.flatMap_cons, List.map_append, ih, spans.instructions]

theorem start_mem (h : Cuts entered count body blocks) (hb : b ∈ blocks) :
    ∃ d ∈ body, b.start = d.address := by
  induction h with
  | nil count => cases hb
  | @cons count run rest last first blocks spans ends goesOn more ih =>
    rcases List.mem_cons.1 hb with rfl | hb
    · obtain ⟨d, hd, hstart⟩ := Option.map_eq_some_iff.1 spans.start
      exact ⟨d, List.mem_append_left _ (List.mem_of_mem_head? hd), hstart.symm⟩
    · obtain ⟨d, hd, hstart⟩ := ih hb
      exact ⟨d, List.mem_append_right _ hd, hstart⟩

theorem ascending (h : Cuts entered count body blocks) (hbody : Disassembly.Ascending body) :
    blocks.Pairwise fun a b => a.start < b.start := by
  induction h with
  | nil count => exact .nil
  | @cons count run rest last first blocks spans ends goesOn more ih =>
    obtain ⟨-, hrest, hbehind⟩ := List.pairwise_append.1 hbody
    refine .cons (fun b hb => ?_) (ih hrest)
    obtain ⟨d, hd, hfirst⟩ := Option.map_eq_some_iff.1 spans.start
    obtain ⟨e, he, hstart⟩ := more.start_mem hb
    rw [← hfirst, hstart]
    exact hbehind d (List.mem_of_mem_head? hd) e he

theorem block (h : Cuts entered count body blocks) {i : Nat} (hb : blocks[i]? = some b) :
    ∃ run last, run <:+: body ∧ Spans entered (count + i) run b ∧ run.getLast? = some last ∧
      GoesOn entered last blocks[i + 1]? b.successors := by
  induction h generalizing i with
  | nil count => simp at hb
  | @cons count run rest last first blocks spans ends goesOn more ih =>
    cases i with
    | zero =>
      obtain rfl : first = b := by simpa using hb
      refine ⟨run, last, (List.prefix_append run rest).isInfix, spans, ends, ?_⟩
      rw [List.getElem?_cons_succ, ← List.head?_eq_getElem?]
      exact goesOn
    | succ i =>
      rw [List.getElem?_cons_succ] at hb
      obtain ⟨run', last', hinfix, hspans, hends, hgoesOn⟩ := ih hb
      refine ⟨run', last', hinfix.trans (List.suffix_append run rest).isInfix, ?_, hends, ?_⟩
      · rwa [Nat.add_right_comm, Nat.add_assoc] at hspans
      · rwa [List.getElem?_cons_succ]

end Cuts

/-! ## One step of the sweep -/

/-- A block with one instruction. -/
def blockOf (index : Nat) (d : Decoded) : BasicBlock := ⟨index, d.address, [d.instruction], []⟩

/-- The blocks from `b` on, which `d` was put into last. -/
def blocksBehind (isLeader : UInt64 → Bool) (count : Nat) (b : BasicBlock) (d : Decoded)
    (rest : List Decoded) : List BasicBlock :=
  if d.flow = .next then blocksFrom isLeader count (some b) rest
  else b.goTo d.successors :: blocksFrom isLeader (count + 1) none rest

theorem blocksFrom_none (isLeader : UInt64 → Bool) (count : Nat) (d : Decoded)
    (rest : List Decoded) :
    blocksFrom isLeader count none (d :: rest) =
      blocksBehind isLeader count (blockOf count d) d rest := by
  unfold blocksBehind
  rw [blocksFrom]
  cases d.flow <;> simp [blockOf, BasicBlock.push]

theorem blocksFrom_leader (h : isLeader d.address = true) (count : Nat) (b : BasicBlock)
    (rest : List Decoded) :
    blocksFrom isLeader count (some b) (d :: rest) =
      b.goTo [⟨d.address, false⟩] ::
        blocksBehind isLeader (count + 1) (blockOf (count + 1) d) d rest := by
  unfold blocksBehind
  rw [blocksFrom]
  cases d.flow <;> simp [h, blockOf, BasicBlock.push]

theorem blocksFrom_inner (h : isLeader d.address = false) (count : Nat) (b : BasicBlock)
    (rest : List Decoded) :
    blocksFrom isLeader count (some b) (d :: rest) =
      blocksBehind isLeader count (b.push d.instruction) d rest := by
  unfold blocksBehind
  rw [blocksFrom]
  cases d.flow <;> simp [h]

/-! ## The sweep -/

/-- The block that a run is gathered in, none before the first instruction. -/
inductive IsOpen (entered : UInt64 → Prop) (count : Nat) :
    List Decoded → Option BasicBlock → Prop where
  | none : IsOpen entered count [] none
  | some {run : List Decoded} {b : BasicBlock} (spans : Spans entered count run b)
      (stays : ∀ d ∈ run, d.flow = .next) (successors : b.successors = []) :
      IsOpen entered count run (some b)

theorem Spans.ne_nil (h : Spans entered count run b) : run ≠ [] := by
  rintro rfl
  cases h.start

theorem Spans.exists_last (h : Spans entered count run b) :
    ∃ last ∈ run, run.getLast? = some last :=
  ⟨run.getLast h.ne_nil, List.getLast_mem h.ne_nil, List.getLast?_eq_some_getLast h.ne_nil⟩

theorem Spans.goTo (h : Spans entered count run b) (edges : List BlockEdge) :
    Spans entered count run (b.goTo edges) :=
  ⟨h.index, h.start, h.instructions, h.stays, h.whole⟩

theorem spans_blockOf (entered : UInt64 → Prop) (count : Nat) (d : Decoded) :
    Spans entered count [d] (blockOf count d) :=
  ⟨rfl, rfl, rfl, by simp, by simp⟩

theorem Spans.push (h : Spans entered count run b) (hstays : ∀ e ∈ run, e.flow = .next)
    (hinner : ¬ entered d.address) : Spans entered count (run ++ [d]) (b.push d.instruction) := by
  obtain ⟨first, more, rfl⟩ := List.exists_cons_of_ne_nil h.ne_nil
  refine ⟨h.index, h.start, ?_, by rwa [List.dropLast_concat], ?_⟩
  · simp [BasicBlock.push, h.instructions]
  · exact List.forall_mem_append.2 ⟨h.whole, List.forall_mem_singleton.2 hinner⟩

theorem goesOn_of_leaves (h : d.flow ≠ .next) (next? : Option BasicBlock) :
    GoesOn entered d next? d.successors := by
  unfold Decoded.successors
  split
  · exact absurd ‹_› h
  · exact .returns ‹_›
  · rename_i target conditional hflow
    cases conditional with
    | false => cases target <;> exact .jumps hflow
    | true => cases target <;> exact .branches hflow

/-- The blocks from one on whose last instruction so far is `d`. -/
theorem cuts_blocksBehind (init : List Decoded) (hspans : Spans entered count (init ++ [d]) b)
    (hstays : ∀ e ∈ init, e.flow = .next) (hsuccessors : b.successors = [])
    (hon : IsOpen entered count (init ++ [d]) (some b) →
      Cuts entered count (init ++ [d] ++ rest) (blocksFrom isLeader count (some b) rest))
    (hdone : Cuts entered (count + 1) rest (blocksFrom isLeader (count + 1) none rest)) :
    Cuts entered count (init ++ [d] ++ rest) (blocksBehind isLeader count b d rest) := by
  unfold blocksBehind
  split
  · rename_i hnext
    exact hon (.some hspans
      (List.forall_mem_append.2 ⟨hstays, List.forall_mem_singleton.2 hnext⟩) hsuccessors)
  · rename_i hleaves
    refine .cons (hspans.goTo _) List.getLast?_concat ?_ hdone
    simpa [BasicBlock.goTo, hsuccessors] using goesOn_of_leaves hleaves _

theorem Cuts.head_start (h : Cuts entered count (d :: rest) blocks) :
    ∃ next, blocks.head? = some next ∧ next.start = d.address := by
  generalize hbody : d :: rest = body at h
  cases h with
  | nil => cases hbody
  | @cons _ run rest' last b blocks spans ends goesOn more =>
    obtain ⟨first, inner, rfl⟩ := List.exists_cons_of_ne_nil spans.ne_nil
    cases hbody
    exact ⟨b, rfl, (Option.some.inj spans.start).symm⟩

/-- The blocks are the runs of a body if leaders, but for its first instruction, are those to which
control may come from elsewhere. -/
theorem cuts_blocksFrom {current : Option BasicBlock} (hopen : IsOpen entered count run current)
    (hleaders : ∀ d ∈ (run ++ rest).tail, isLeader d.address = true ↔ entered d.address) :
    Cuts entered count (run ++ rest) (blocksFrom isLeader count current rest) := by
  induction rest generalizing count run current with
  | nil =>
    rw [List.append_nil]
    cases hopen with
    | none => exact .nil count
    | some spans stays successors =>
      obtain ⟨last, hlast, ends⟩ := spans.exists_last
      have hends : GoesOn entered last ([] : List BasicBlock).head? [] :=
        .ends (stays last hlast) rfl
      rw [← successors] at hends
      simpa [blocksFrom] using Cuts.cons spans ends hends (.nil (count + 1))
  | cons d rest ih =>
    have hrest : ∀ e ∈ rest, e ∈ (run ++ d :: rest).tail := by
      intro e he
      cases run with
      | nil => exact he
      | cons first run => exact List.mem_append_right _ (List.mem_cons_of_mem _ he)
    have hdone : ∀ count, Cuts entered count rest (blocksFrom isLeader count none rest) :=
      fun count => ih (@IsOpen.none entered count) fun e he =>
        hleaders e (hrest e (List.mem_of_mem_tail he))
    -- `d` starts a block, which is number `count`.
    have hstarts : ∀ count, Cuts entered count (d :: rest)
        (blocksBehind isLeader count (blockOf count d) d rest) := fun count =>
      cuts_blocksBehind [] (spans_blockOf entered count d) (by simp) rfl
        (fun hopen => ih hopen fun e he => hleaders e (hrest e he)) (hdone _)
    cases hopen with
    | none =>
      rw [blocksFrom_none]
      exact hstarts count
    | @some _ b spans stays successors =>
      have hd : isLeader d.address = true ↔ entered d.address := by
        obtain ⟨first, more, rfl⟩ := List.exists_cons_of_ne_nil spans.ne_nil
        exact hleaders d (by simp)
      by_cases hleader : isLeader d.address = true
      · rw [blocksFrom_leader hleader]
        obtain ⟨next, hnext, hstart⟩ := (hstarts (count + 1)).head_start
        obtain ⟨last, hlast, ends⟩ := spans.exists_last
        refine .cons (spans.goTo _) ends ?_ (hstarts (count + 1))
        have hfalls := GoesOn.falls (stays last hlast) hnext (hstart ▸ hd.1 hleader)
        simpa [BasicBlock.goTo, successors, hstart] using hfalls
      · rw [blocksFrom_inner (Bool.not_eq_true _ ▸ hleader), List.append_cons]
        exact cuts_blocksBehind _ (spans.push stays (mt hd.2 hleader)) stays successors
          (fun hopen => ih hopen (by rwa [List.append_assoc])) (hdone _)

/-! ## Functions -/

theorem Decoded.mem_leaders (d : Decoded) (f : FunctionExtent) (address : UInt64) :
    address ∈ d.leaders f ↔
      (∃ conditional, d.flow = .jump (some address) conditional ∧
        f.entry ≤ address ∧ address < f.stop) ∨
      (d.flow ≠ .next ∧ d.instruction.next = address) := by
  unfold Decoded.leaders
  split
  · simp [*]
  · simp [*, eq_comm]
  · rename_i target conditional hflow
    rw [List.mem_append, Option.mem_toList, Option.filter_eq_some_iff, List.mem_singleton,
      @eq_comm _ address]
    simp [hflow]

theorem mem_leaders (f : FunctionExtent) (body : List Decoded) (address : UInt64) :
    address ∈ leaders f body ↔ address = f.entry ∨ Entered f body address := by
  simp only [leaders, List.mem_cons, List.mem_flatMap, Decoded.mem_leaders, Entered]

namespace Disassembly

theorem Ascending.isBlockGraph (h : Ascending body) (hentry : ∀ d ∈ body, f.entry ≤ d.address) :
    IsBlockGraph f body (blocksOfBody f body) := by
  have hleaders : ∀ d ∈ body.tail,
      (leaders f body).contains d.address = true ↔ Entered f body d.address := by
    intro d hd
    rw [List.contains_iff_mem, mem_leaders, or_iff_right]
    -- Behind the first instruction nothing is at the entry.
    cases body with
    | nil => cases hd
    | cons first rest =>
      have hlt := List.rel_of_pairwise_cons h hd
      exact (UInt64.ne_of_lt (UInt64.lt_of_le_of_lt (hentry first List.mem_cons_self) hlt)).symm
  have hcuts : Cuts (Entered f body) 0 body (blocksOfBody f body) :=
    cuts_blocksFrom (@IsOpen.none (Entered f body) 0) hleaders
  refine ⟨hcuts.covers, ?_, hcuts.ascending h, fun i b hb => ?_⟩
  · rw [hcuts.covers]
    exact List.pairwise_map.2 h
  · simpa using hcuts.block hb

variable {p : Disassembly}

/-- The blocks of a function are a graph of the instructions in its range, whatever these are and
wherever they jump to. -/
theorem blocksOf_isBlockGraph (h : p.Sound) (f : FunctionExtent) :
    IsBlockGraph f (p.decodedIn f.entry f.stop) (p.blocksOf f) :=
  (ascending_body h f).isBlockGraph fun _ hd => ((mem_decodedIn h).1 hd).2.1

/-- A branch over an instruction and a byte that is none. -/
theorem blocksOf_isBlockGraph_branch :
    let f : FunctionExtent := ⟨"f", 0x1000, 0x1008⟩
    let test : Decoded := ⟨⟨0x1000, [0x85, 0xff], "test edi, edi"⟩, [], .next⟩
    let branch : Decoded := ⟨⟨0x1002, [0x74, 0x03], "je 0x1007"⟩, [], .jump (some 0x1007) true⟩
    let inc : Decoded := ⟨⟨0x1004, [0xff, 0xc0], "inc eax"⟩, [], .next⟩
    let ret : Decoded := ⟨⟨0x1007, [0xc3], "ret"⟩, [], .return⟩
    let p : Disassembly := ⟨[f], [test, branch, inc, ret].map fun d => (d.address, d)⟩
    p.Sound ∧
      p.blocksOf f =
        [⟨0, 0x1000, [test.instruction, branch.instruction], [⟨0x1007, true⟩, ⟨0x1004, false⟩]⟩,
          ⟨1, 0x1004, [inc.instruction], [⟨0x1007, false⟩]⟩,
          ⟨2, 0x1007, [ret.instruction], []⟩] ∧
      IsBlockGraph f (p.decodedIn f.entry f.stop) (p.blocksOf f) := by
  intro f test branch inc ret p
  have hsound : p.Sound := ⟨by unfold Keyed.Ordered; decide, by decide⟩
  exact ⟨hsound, by decide +kernel, blocksOf_isBlockGraph hsound f⟩

end Disassembly

end CrateTrace.Program
