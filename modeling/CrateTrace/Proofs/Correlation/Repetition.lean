import CrateTrace.Proofs.Correlation.Order

/-!
# Repeated candidates

A candidate that comes twice counts as two. A link that it had to itself turns into a tie between its
copies: the policy leaves it, or makes it again as a tie-break.
-/

namespace CrateTrace.Correlation

variable {policy : TieBreak} {candidates more xs ys : List Candidate} {probe : Probe}

/-! ## Lists with members that come again -/

/-- Behind the members of a list those come again that are in `more`. -/
def Repeats (more xs ys : List Candidate) : Prop :=
  ∃ rest, ys = xs ++ rest ∧ ∀ c, c ∈ rest ↔ c ∈ xs ∧ c ∈ more

theorem repeats_append (h : ∀ c ∈ more, c ∈ xs) : Repeats more xs (xs ++ more) :=
  ⟨more, rfl, fun c => ⟨fun hc => ⟨h c hc, hc⟩, And.right⟩⟩

theorem rearranges_repeats (more : List Candidate) : Rearranges (Repeats more) where
  mem_iff := by
    rintro xs ys ⟨rest, rfl, hrest⟩ c
    rw [List.mem_append, hrest]
    tauto
  filter := by
    rintro xs ys ⟨rest, rfl, hrest⟩ p
    refine ⟨rest.filter p, List.filter_append .., fun c => ?_⟩
    rw [List.mem_filter, List.mem_filter, hrest]
    tauto

namespace Repeats

theorem mem_iff (h : Repeats more xs ys) (c : Candidate) : c ∈ xs ↔ c ∈ ys :=
  (rearranges_repeats more).mem_iff h c

theorem eq_nil_iff (h : Repeats more xs ys) : xs = [] ↔ ys = [] :=
  (rearranges_repeats more).eq_nil_iff h

theorem length_ne_one (h : Repeats more xs ys) (hxs : xs.length ≠ 1) : ys.length ≠ 1 := by
  have hnil := h.eq_nil_iff
  rw [← List.length_eq_zero_iff, ← List.length_eq_zero_iff] at hnil
  obtain ⟨rest, rfl, -⟩ := h
  rw [List.length_append] at hnil ⊢
  omega

theorem eq_singleton {c : Candidate} (h : Repeats more [c] ys) (hc : c ∉ more) : ys = [c] := by
  obtain ⟨rest, rfl, hrest⟩ := h
  have hnone : rest = [] := by
    rw [List.eq_nil_iff_forall_not_mem]
    intro d hd
    obtain ⟨hd, hdmore⟩ := (hrest d).1 hd
    rw [List.mem_singleton.1 hd] at hdmore
    exact hc hdmore
  rw [hnone, List.append_nil]

theorem singleton_length {c : Candidate} (h : Repeats more [c] ys) (hc : c ∈ more) :
    ys.length ≠ 1 := by
  obtain ⟨rest, rfl, hrest⟩ := h
  have := List.length_pos_of_mem ((hrest c).2 ⟨List.mem_singleton_self c, hc⟩)
  rw [List.length_append, List.length_singleton]
  omega

end Repeats

/-! ## Answers -/

/-- What becomes of an answer if the candidates with these numbers come again. -/
inductive Weakens (policy : TieBreak) (again : Int → Bool) : Outcome → Outcome → Prop where
  | keeps {id : Int} {basis : Basis} (new : again id = false) :
    Weakens policy again (.linked id basis) (.linked id basis)
  | ties {id : Int} {basis : Basis} (copied : again id = true)
    (decides : policy = .lexicographicallySmallest) :
    Weakens policy again (.linked id basis) (.linked id .tieBreak)
  | leaves {id : Int} {basis : Basis} {reason : Reason} (copied : again id = true)
    (leaves : policy = .leaveUnmatched) :
    Weakens policy again (.linked id basis) (.unmatched reason)
  | unmatched {reason reason' : Reason} :
    Weakens policy again (.unmatched reason) (.unmatched reason')

theorem Weakens.congr {again again' : Int → Bool} {outcome outcome' : Outcome}
    (h : Weakens policy again outcome outcome')
    (hagain : ∀ id, outcome.source? = some id → again id = again' id) :
    Weakens policy again' outcome outcome' := by
  cases h with
  | keeps new => exact .keeps (hagain _ rfl ▸ new)
  | ties copied decides => exact .ties (hagain _ rfl ▸ copied) decides
  | leaves copied leaves => exact .leaves (hagain _ rfl ▸ copied) leaves
  | unmatched => exact .unmatched

/-- Copies of one candidate are a tie. -/
theorem weakens_of_tie {again : Int → Bool} {c : Candidate} {basis : Basis}
    (copied : again c.id = true) (hnamed : (named candidates probe).length ≠ 1)
    (hfavoured : (favoured candidates probe).length ≠ 1)
    (hleast : IsLeast c (tied candidates probe)) :
    Weakens policy again (.linked c.id basis) (resolve policy candidates probe) := by
  rw [resolve_of_tie hnamed hfavoured, if_neg (List.ne_nil_of_mem hleast.1)]
  cases policy with
  | leaveUnmatched => exact .leaves copied rfl
  | lexicographicallySmallest =>
    rw [breakTie_least hleast]
    exact .ties copied rfl

/-- A tie that was left is left again. -/
theorem weakens_of_left {again : Int → Bool} {reason : Reason} (leaves : policy = .leaveUnmatched)
    (hnamed : (named candidates probe).length ≠ 1)
    (hfavoured : (favoured candidates probe).length ≠ 1) (htied : tied candidates probe ≠ []) :
    Weakens policy again (.unmatched reason) (resolve policy candidates probe) := by
  rw [resolve_of_tie hnamed hfavoured, if_neg htied, leaves, breakTie_leave]
  exact .unmatched

theorem isLeast_singleton (c : Candidate) : IsLeast c [c] := by simp [IsLeast]

theorem favoured_of_named {c : Candidate} (h : named candidates probe = [c]) :
    favoured candidates probe = [] ∨ favoured candidates probe = [c] := by
  have hpool : poolOf candidates probe = [c] := by simp [poolOf, h]
  rw [favoured, hpool]
  cases hbest : isBest probe [c] c <;> simp [hbest]

theorem tied_of_named {c : Candidate} (h : named candidates probe = [c]) :
    tied candidates probe = [c] := by
  rw [tied]
  rcases favoured_of_named h with hnone | hone
  · rw [if_pos hnone, h]
  · rw [if_neg (by simp [hone]), hone]

theorem tied_of_favoured {c : Candidate} (h : favoured candidates probe = [c]) :
    tied candidates probe = [c] := by
  rw [tied, if_neg (by simp [h]), h]

theorem resolve_repeats (h : Repeats more xs ys)
    (hids : ∀ c ∈ xs, ∀ d ∈ more, c.id = d.id → c = d) :
    Weakens policy (fun id => more.any fun d => d.id == id) (resolve policy xs probe)
      (resolve policy ys probe) := by
  have hnamed := (rearranges_repeats more).on_named probe h
  have hfavoured := (rearranges_repeats more).on_favoured probe h
  have htied := (rearranges_repeats more).on_tied probe h
  have hcopied : ∀ c ∈ more, (more.any fun d => d.id == c.id) = true := fun c hc =>
    List.any_eq_true.2 ⟨c, hc, beq_self_eq_true c.id⟩
  have hnew : ∀ c ∈ xs, c ∉ more → (more.any fun d => d.id == c.id) = false := by
    intro c hc hmore
    rw [List.any_eq_false]
    intro d hd hid
    exact hmore (hids c hc d hd (beq_iff_eq.1 hid).symm ▸ hd)
  generalize hxs : resolve policy xs probe = outcome
  cases hxs ▸ answers_resolve policy xs probe with
  | @byName c only =>
    have hc : c ∈ xs := (List.mem_filter.1 (only ▸ List.mem_singleton_self c)).1
    rw [only] at hnamed
    rw [tied_of_named only] at htied
    by_cases hmore : c ∈ more
    · have htie : (favoured ys probe).length ≠ 1 := by
        rcases favoured_of_named only with hnone | hone
        · exact hfavoured.length_ne_one (by simp [hnone])
        · exact (hone ▸ hfavoured).singleton_length hmore
      exact weakens_of_tie (hcopied c hmore) (hnamed.singleton_length hmore) htie
        ((isLeast_singleton c).congr htied.mem_iff)
    · rw [resolve_of_named (hnamed.eq_singleton hmore)]
      exact .keeps (hnew c hc hmore)
  | @bySignature c unnamed only =>
    have hc : c ∈ poolOf xs probe := (List.mem_filter.1 (only ▸ List.mem_singleton_self c)).1
    rw [only] at hfavoured
    rw [tied_of_favoured only] at htied
    by_cases hmore : c ∈ more
    · exact weakens_of_tie (hcopied c hmore) (hnamed.length_ne_one unnamed)
        (hfavoured.singleton_length hmore) ((isLeast_singleton c).congr htied.mem_iff)
    · rw [resolve_of_favoured (hnamed.length_ne_one unnamed) (hfavoured.eq_singleton hmore)]
      exact .keeps (hnew c (mem_of_mem_poolOf hc) hmore)
  | @byTieBreak c decides unnamed tie least =>
    have hleast := least.congr htied.mem_iff
    rw [resolve_of_tie (hnamed.length_ne_one unnamed)
      (hfavoured.length_ne_one (favoured_of_tie tie)), if_neg (List.ne_nil_of_mem hleast.1), decides,
      breakTie_least hleast]
    cases hagain : more.any fun d => d.id == c.id with
    | true => exact .ties hagain rfl
    | false => exact .keeps hagain
  | ambiguous leaves several tie =>
    have hsome : named xs probe ≠ [] := List.ne_nil_of_length_pos (by omega)
    exact weakens_of_left leaves (hnamed.length_ne_one (by omega)) (hfavoured.length_ne_one tie)
      (mt htied.eq_nil_iff.2 (tied_ne_nil (.inl hsome)))
  | signatureTie leaves unnamed tie =>
    have hsome : favoured xs probe ≠ [] := List.ne_nil_of_length_pos (by omega)
    exact weakens_of_left leaves (hnamed.length_ne_one (by simp [unnamed]))
      (hfavoured.length_ne_one (by omega)) (mt htied.eq_nil_iff.2 (tied_ne_nil (.inr hsome)))
  | noCandidate unnamed unfavoured =>
    rw [(Answers.noCandidate (hnamed.eq_nil_iff.1 unnamed)
      (hfavoured.eq_nil_iff.1 unfavoured)).eq_resolve]
    exact .unmatched

end CrateTrace.Correlation
