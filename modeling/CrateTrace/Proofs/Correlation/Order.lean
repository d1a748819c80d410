import CrateTrace.Proofs.Correlation.Decision

/-!
# The order of candidates

The rule of the correlation asks which candidates there are, and how many. So an answer is the same
in whatever order they come.
-/

namespace CrateTrace.Correlation

variable {policy : TieBreak} {candidates candidates' pool pool' xs ys : List Candidate}
  {probe : Probe}

/-! ## What the members decide -/

theorem isBest_congr (h : ∀ c, c ∈ pool ↔ c ∈ pool') : isBest probe pool = isBest probe pool' := by
  funext c
  unfold isBest
  split
  · rfl
  · congr 1
    rw [Bool.eq_iff_iff, List.all_eq_true, List.all_eq_true]
    exact forall_congr' fun d => imp_congr_left (h d)

theorem IsLeast.congr {c : Candidate} (hc : IsLeast c pool) (h : ∀ d, d ∈ pool ↔ d ∈ pool') :
    IsLeast c pool' :=
  ⟨(h c).1 hc.1, fun d hd => hc.2 d ((h d).2 hd)⟩

/-! ## The parts of the rule -/

/-- A relation between lists with the same members, in whatever order or number, that filters
keep. -/
structure Rearranges (R : List Candidate → List Candidate → Prop) : Prop where
  mem_iff {xs ys : List Candidate} (h : R xs ys) (c : Candidate) : c ∈ xs ↔ c ∈ ys
  filter {xs ys : List Candidate} (h : R xs ys) (p : Candidate → Bool) :
    R (xs.filter p) (ys.filter p)

namespace Rearranges

variable {R : List Candidate → List Candidate → Prop}

theorem eq_nil_iff (hR : Rearranges R) (h : R xs ys) : xs = [] ↔ ys = [] := by
  rw [List.eq_nil_iff_forall_not_mem, List.eq_nil_iff_forall_not_mem]
  exact forall_congr' fun c => not_congr (hR.mem_iff h c)

theorem on_named (hR : Rearranges R) (probe : Probe) (h : R xs ys) :
    R (named xs probe) (named ys probe) :=
  hR.filter h _

theorem on_poolOf (hR : Rearranges R) (probe : Probe) (h : R xs ys) :
    R (poolOf xs probe) (poolOf ys probe) := by
  simp only [poolOf, hR.eq_nil_iff (hR.on_named probe h)]
  split
  · exact h
  · exact hR.on_named probe h

theorem on_favoured (hR : Rearranges R) (probe : Probe) (h : R xs ys) :
    R (favoured xs probe) (favoured ys probe) := by
  unfold favoured
  rw [isBest_congr (hR.mem_iff (hR.on_poolOf probe h))]
  exact hR.filter (hR.on_poolOf probe h) _

theorem on_tied (hR : Rearranges R) (probe : Probe) (h : R xs ys) :
    R (tied xs probe) (tied ys probe) := by
  simp only [tied, hR.eq_nil_iff (hR.on_favoured probe h)]
  split
  · exact hR.on_named probe h
  · exact hR.on_favoured probe h

end Rearranges

/-! ## Other orders -/

theorem rearranges_perm : Rearranges List.Perm where
  mem_iff h _ := h.mem_iff
  filter h p := h.filter p

theorem Answers.perm {outcome : Outcome} (h : Answers policy candidates probe outcome)
    (horder : candidates.Perm candidates') : Answers policy candidates' probe outcome := by
  have hnamed := rearranges_perm.on_named probe horder
  have hfavoured := rearranges_perm.on_favoured probe horder
  have htied := rearranges_perm.on_tied probe horder
  cases h with
  | byName only => exact .byName (List.perm_singleton.1 (only ▸ hnamed.symm))
  | bySignature unnamed only =>
    exact .bySignature (hnamed.length_eq ▸ unnamed) (List.perm_singleton.1 (only ▸ hfavoured.symm))
  | byTieBreak decides unnamed tie least =>
    exact .byTieBreak decides (hnamed.length_eq ▸ unnamed) (htied.length_eq ▸ tie)
      (least.congr fun d => htied.mem_iff)
  | ambiguous leaves several tie =>
    rw [hnamed.length_eq] at several ⊢
    exact .ambiguous leaves several (hfavoured.length_eq ▸ tie)
  | signatureTie leaves unnamed tie =>
    rw [hfavoured.length_eq] at tie ⊢
    exact .signatureTie leaves ((rearranges_perm.eq_nil_iff hnamed).1 unnamed) tie
  | noCandidate unnamed unfavoured =>
    exact .noCandidate ((rearranges_perm.eq_nil_iff hnamed).1 unnamed)
      ((rearranges_perm.eq_nil_iff hfavoured).1 unfavoured)

theorem resolve_perm (policy : TieBreak) (probe : Probe) (h : candidates.Perm candidates') :
    resolve policy candidates probe = resolve policy candidates' probe :=
  ((answers_resolve policy candidates probe).perm h).eq_resolve.symm

/-- Three candidates of one name, two of them with one id. -/
theorem resolve_perm_sample :
    let a : Candidate := ⟨2, "run", ⟨["run"], none⟩, some ⟨[.byte 85]⟩⟩
    let b : Candidate := ⟨1, "run", ⟨["fly"], none⟩, some ⟨[.byte 85]⟩⟩
    let c : Candidate := ⟨1, "run", ⟨["sit"], none⟩, some ⟨[.byte 85]⟩⟩
    let probe : Probe := ⟨⟨["go"], none⟩, some ⟨[.byte 85, .byte 195]⟩⟩
    [a, b, c].Perm [c, a, b] ∧
      resolve .lexicographicallySmallest [a, b, c] probe = .linked 1 .tieBreak ∧
      resolve .lexicographicallySmallest [c, a, b] probe = .linked 1 .tieBreak := by
  intro a b c probe
  have horder : [a, b, c].Perm [c, a, b] := by decide
  have hanswer : resolve .lexicographicallySmallest [a, b, c] probe = .linked 1 .tieBreak := by
    decide +kernel
  exact ⟨horder, hanswer, (resolve_perm _ probe horder).symm.trans hanswer⟩

end CrateTrace.Correlation
