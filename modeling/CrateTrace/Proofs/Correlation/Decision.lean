import CrateTrace.Proofs.Correlation
import Mathlib.Data.Prod.Lex
import Mathlib.Data.String.Basic

/-!
# The rule of the correlation

How a probe is answered, said of the candidates as a whole: those with its key, those whose
signatures agree best, and the least of a tie. Main statement: looking at the candidates one after
the other comes to what the rule says, and to nothing else.
-/

namespace CrateTrace.Correlation

variable {policy : TieBreak} {candidates pool : List Candidate} {probe : Probe}

/-! ## The rule -/

/-- The candidates with the probe's key. -/
def named (candidates : List Candidate) (probe : Probe) : List Candidate :=
  candidates.filter fun c => c.key = probe.key

/-- Among whom signatures are asked. -/
def poolOf (candidates : List Candidate) (probe : Probe) : List Candidate :=
  if named candidates probe = [] then candidates else named candidates probe

/-- A signature that agrees with the probe's in some byte, while no other of the pool agrees in
more. -/
def isBest (probe : Probe) (pool : List Candidate) (c : Candidate) : Bool :=
  match c.score? probe with
  | none => false
  | some score => 0 < score && pool.all fun d => (d.score? probe).all (· ≤ score)

def favoured (candidates : List Candidate) (probe : Probe) : List Candidate :=
  (poolOf candidates probe).filter (isBest probe (poolOf candidates probe))

/-- Between whom the policy has to decide. -/
def tied (candidates : List Candidate) (probe : Probe) : List Candidate :=
  if favoured candidates probe = [] then named candidates probe else favoured candidates probe

/-- By full name, then by id. -/
def Candidate.rank (c : Candidate) : String ×ₗ Int := toLex (c.fullName, c.id)

def IsLeast (c : Candidate) (tied : List Candidate) : Prop :=
  c ∈ tied ∧ ∀ d ∈ tied, c.rank ≤ d.rank

inductive Answers (policy : TieBreak) (candidates : List Candidate) (probe : Probe) :
    Outcome → Prop where
  | byName {c : Candidate} (only : named candidates probe = [c]) :
    Answers policy candidates probe (.linked c.id .name)
  | bySignature {c : Candidate} (unnamed : (named candidates probe).length ≠ 1)
    (only : favoured candidates probe = [c]) :
    Answers policy candidates probe (.linked c.id .signature)
  | byTieBreak {c : Candidate} (decides : policy = .lexicographicallySmallest)
    (unnamed : (named candidates probe).length ≠ 1) (tie : 2 ≤ (tied candidates probe).length)
    (least : IsLeast c (tied candidates probe)) :
    Answers policy candidates probe (.linked c.id .tieBreak)
  | ambiguous (leaves : policy = .leaveUnmatched) (several : 2 ≤ (named candidates probe).length)
    (tie : (favoured candidates probe).length ≠ 1) :
    Answers policy candidates probe (.unmatched (.ambiguous (named candidates probe).length))
  | signatureTie (leaves : policy = .leaveUnmatched) (unnamed : named candidates probe = [])
    (tie : 2 ≤ (favoured candidates probe).length) :
    Answers policy candidates probe
      (.unmatched (.signatureTie (favoured candidates probe).length))
  | noCandidate (unnamed : named candidates probe = [])
    (unfavoured : favoured candidates probe = []) :
    Answers policy candidates probe (.unmatched .noCandidate)

/-! ## The best of a pool -/

/-- What has been found out when some candidates have been seen. -/
structure Best.Knows (probe : Probe) (best : Best) (seen : List Candidate) : Prop where
  bound : ∀ c ∈ seen, ∀ score, c.score? probe = some score → score ≤ best.score
  members : best.members =
    seen.filter fun c => 0 < best.score && c.score? probe == some best.score
  reached : 0 < best.score → best.members ≠ []

theorem Best.knows_nil (probe : Probe) : Best.Knows probe ⟨0, []⟩ [] :=
  ⟨by simp, rfl, by simp⟩

theorem Best.Knows.offer {best : Best} {seen : List Candidate} (h : best.Knows probe seen)
    (c : Candidate) : (best.offer probe c).Knows probe (seen ++ [c]) := by
  obtain ⟨bound, members, reached⟩ := h
  have hbound : ∀ limit, best.score ≤ limit →
      (∀ score, c.score? probe = some score → score ≤ limit) →
      ∀ d ∈ seen ++ [c], ∀ score, d.score? probe = some score → score ≤ limit := by
    intro limit hseen hc d hd score hscore
    rcases List.mem_append.1 hd with hd | hd
    · exact Nat.le_trans (bound d hd score hscore) hseen
    · rw [List.mem_singleton.1 hd] at hscore
      exact hc score hscore
  unfold Best.offer
  split
  case h_1 hnone => exact ⟨hbound _ le_rfl (by simp [hnone]), by simp [members, hnone], reached⟩
  case h_2 score hscore =>
    split_ifs with hlow hhigh
    · -- A lower score, or none at all, changes nothing.
      refine ⟨hbound _ le_rfl (by simp [hscore]; omega), ?_, reached⟩
      have hout : ¬ (0 < best.score ∧ score = best.score) := by omega
      simpa [members, hscore] using fun h0 h => hout ⟨h0, h⟩
    · -- A higher score leaves none of those before.
      refine ⟨hbound score (by omega) (by simp [hscore]), ?_, by simp⟩
      have hseen : (seen.filter fun d => 0 < score && d.score? probe == some score) = [] := by
        rw [List.filter_eq_nil_iff]
        intro d hd hmatch
        have hle := bound d hd score (by simp_all)
        omega
      have hpos : 0 < score := by omega
      rw [List.filter_append, hseen]
      simp [hscore, hpos]
    · have heq : score = best.score := by omega
      have hpos : 0 < best.score := by omega
      refine ⟨hbound _ le_rfl (by simp [hscore, heq]), ?_, by simp⟩
      simp [members, hscore, heq, hpos]

theorem Best.Knows.foldl {best : Best} {seen : List Candidate} (h : best.Knows probe seen)
    (rest : List Candidate) : (rest.foldl (Best.offer probe) best).Knows probe (seen ++ rest) := by
  induction rest generalizing best seen with
  | nil => simpa using h
  | cons c rest ih => simpa using ih (h.offer c)

theorem bestOf_eq (probe : Probe) (pool : List Candidate) :
    bestOf probe pool = pool.filter (isBest probe pool) := by
  obtain ⟨bound, members, reached⟩ := (Best.knows_nil probe).foldl pool
  rw [List.nil_append] at bound members
  unfold bestOf
  generalize pool.foldl (Best.offer probe) ⟨0, []⟩ = best at bound members reached
  rw [members]
  apply List.filter_congr
  intro c hc
  rw [Bool.eq_iff_iff]
  constructor
  · intro h
    have hscore : 0 < best.score ∧ c.score? probe = some best.score := by simpa using h
    have hall : ∀ d ∈ pool, (d.score? probe).all (· ≤ best.score) := fun d hd => by
      simpa [Option.all_eq_true] using bound d hd
    simpa [isBest, hscore] using hall
  · intro h
    unfold isBest at h
    split at h
    case h_1 => cases h
    case h_2 score hscore =>
      simp only [Bool.and_eq_true, decide_eq_true_eq, List.all_eq_true, Option.all_eq_true] at h
      obtain ⟨hpos, hall⟩ := h
      have hle := bound c hc score hscore
      -- Somebody has the best score, and does not exceed this one.
      obtain ⟨d, hd⟩ := List.exists_mem_of_ne_nil _ (reached (by omega))
      rw [members, List.mem_filter] at hd
      have hdscore : d.score? probe = some best.score := by simp_all
      have hge := hall d hd.1 best.score hdscore
      have heq : score = best.score := by omega
      simp [hscore, heq]
      omega

/-! ## The least of a tie -/

theorem Candidate.before_iff {a b : Candidate} : a.before b ↔ a.rank < b.rank := by
  simp [Candidate.before, Candidate.rank, Prod.Lex.toLex_lt_toLex]

theorem Candidate.id_eq_of_rank_eq {a b : Candidate} (h : a.rank = b.rank) : a.id = b.id :=
  congrArg (fun r : String ×ₗ Int => (ofLex r).2) h

theorem rank_foldl_le (c : Candidate) (rest : List Candidate) :
    ∀ d ∈ c :: rest,
      (rest.foldl (fun least d => if d.before least then d else least) c).rank ≤ d.rank := by
  induction rest generalizing c with
  | nil => simp
  | cons d rest ih =>
    rw [List.foldl_cons]
    have hboth : (if d.before c then d else c).rank ≤ c.rank ∧
        (if d.before c then d else c).rank ≤ d.rank := by
      split
      · rename_i hbefore
        exact ⟨(Candidate.before_iff.1 hbefore).le, le_rfl⟩
      · rename_i hbefore
        exact ⟨le_rfl, not_lt.1 fun hlt => hbefore (Candidate.before_iff.2 hlt)⟩
    have hfirst := ih (if d.before c then d else c) _ List.mem_cons_self
    intro e he
    rcases List.mem_cons.1 he with rfl | he
    · exact hfirst.trans hboth.1
    rcases List.mem_cons.1 he with rfl | he
    · exact hfirst.trans hboth.2
    · exact ih _ e (List.mem_cons_of_mem _ he)

theorem isLeast_foldl (c : Candidate) (rest : List Candidate) :
    IsLeast (rest.foldl (fun least d => if d.before least then d else least) c) (c :: rest) :=
  ⟨foldl_least_mem c rest, rank_foldl_le c rest⟩

theorem IsLeast.id_eq {c d : Candidate} {tied : List Candidate} (hc : IsLeast c tied)
    (hd : IsLeast d tied) : c.id = d.id :=
  Candidate.id_eq_of_rank_eq (le_antisymm (hc.2 d hd.1) (hd.2 c hc.1))

theorem breakTie_leave (tied : List Candidate) (reason : Reason) :
    breakTie .leaveUnmatched tied reason = .unmatched reason := rfl

theorem breakTie_least {c : Candidate} {tied : List Candidate} (h : IsLeast c tied)
    (reason : Reason) :
    breakTie .lexicographicallySmallest tied reason = .linked c.id .tieBreak := by
  cases tied with
  | nil => cases h.1
  | cons d rest => exact congrArg (Outcome.linked · .tieBreak) ((isLeast_foldl d rest).id_eq h)

theorem exists_isLeast {tied : List Candidate} (h : tied ≠ []) : ∃ c, IsLeast c tied := by
  cases tied with
  | nil => exact absurd rfl h
  | cons c rest => exact ⟨_, isLeast_foldl c rest⟩

/-! ## The decision -/

theorem mem_of_mem_poolOf {c : Candidate} (h : c ∈ poolOf candidates probe) : c ∈ candidates := by
  rw [poolOf] at h
  split at h
  · exact h
  · exact (List.mem_filter.1 h).1

theorem resolve_of_named {c : Candidate} (h : named candidates probe = [c]) :
    resolve policy candidates probe = .linked c.id .name := by
  unfold named at h
  unfold resolve
  rw [h]

theorem resolve_of_unnamed (h : named candidates probe = []) :
    resolve policy candidates probe =
      match favoured candidates probe with
      | [] => .unmatched .noCandidate
      | [only] => .linked only.id .signature
      | tied => breakTie policy tied (.signatureTie tied.length) := by
  have hpool : poolOf candidates probe = candidates := if_pos h
  rw [favoured, hpool, ← bestOf_eq]
  unfold named at h
  unfold resolve
  cases bestOf probe candidates with
  | nil => simp only [h]
  | cons c more => cases more <;> simp only [h]

theorem resolve_of_several (h : 2 ≤ (named candidates probe).length) :
    resolve policy candidates probe =
      match favoured candidates probe with
      | [] => breakTie policy (named candidates probe)
          (.ambiguous (named candidates probe).length)
      | [only] => .linked only.id .signature
      | tied => breakTie policy tied (.ambiguous (named candidates probe).length) := by
  have hpool : poolOf candidates probe = named candidates probe :=
    if_neg (List.ne_nil_of_length_pos (by omega))
  rw [favoured, hpool, ← bestOf_eq]
  obtain ⟨a, b, rest, hnamed⟩ : ∃ a b rest, named candidates probe = a :: b :: rest := by
    match named candidates probe, h with
    | a :: b :: rest, _ => exact ⟨a, b, rest, rfl⟩
  rw [hnamed]
  unfold named at hnamed
  unfold resolve
  rw [hnamed]
  dsimp only
  cases bestOf probe (a :: b :: rest) with
  | nil => rfl
  | cons c more => cases more <;> rfl

theorem resolve_of_favoured {c : Candidate} (hnamed : (named candidates probe).length ≠ 1)
    (h : favoured candidates probe = [c]) :
    resolve policy candidates probe = .linked c.id .signature := by
  by_cases hnone : named candidates probe = []
  · rw [resolve_of_unnamed hnone, h]
  · have := List.length_pos_iff.2 hnone
    rw [resolve_of_several (by omega), h]

theorem tied_ne_nil (h : named candidates probe ≠ [] ∨ favoured candidates probe ≠ []) :
    tied candidates probe ≠ [] := by
  rw [tied]
  split
  · rename_i hnone
    exact h.resolve_right (not_not.2 hnone)
  · assumption

theorem favoured_of_tie (h : 2 ≤ (tied candidates probe).length) :
    (favoured candidates probe).length ≠ 1 := by
  intro hone
  rw [tied, if_neg (List.ne_nil_of_length_pos (by omega))] at h
  omega

/-- Ties without any candidate are none. -/
theorem resolve_of_tie (hnamed : (named candidates probe).length ≠ 1)
    (h : (favoured candidates probe).length ≠ 1) :
    resolve policy candidates probe =
      if tied candidates probe = [] then .unmatched .noCandidate
      else breakTie policy (tied candidates probe) <|
        if named candidates probe = [] then .signatureTie (favoured candidates probe).length
        else .ambiguous (named candidates probe).length := by
  by_cases hnone : named candidates probe = []
  · rw [resolve_of_unnamed hnone]
    split
    case h_1 hfavoured => simp [tied, hfavoured, hnone]
    case h_2 hfavoured => simp [hfavoured] at h
    case h_3 hsome _ =>
      have hfavoured : favoured candidates probe ≠ [] := hsome
      simp [tied, hfavoured, hnone]
  · have := List.length_pos_iff.2 hnone
    rw [resolve_of_several (by omega)]
    split
    case h_1 hfavoured => simp [tied, hfavoured, hnone]
    case h_2 hfavoured => simp [hfavoured] at h
    case h_3 hsome _ =>
      have hfavoured : favoured candidates probe ≠ [] := hsome
      simp [tied, hfavoured, hnone]

theorem answers_resolve (policy : TieBreak) (candidates : List Candidate) (probe : Probe) :
    Answers policy candidates probe (resolve policy candidates probe) := by
  by_cases hnamed : (named candidates probe).length = 1
  · obtain ⟨c, hc⟩ := List.length_eq_one_iff.1 hnamed
    rw [resolve_of_named hc]
    exact .byName hc
  by_cases hfavoured : (favoured candidates probe).length = 1
  · obtain ⟨c, hc⟩ := List.length_eq_one_iff.1 hfavoured
    rw [resolve_of_favoured hnamed hc]
    exact .bySignature hnamed hc
  rw [resolve_of_tie hnamed hfavoured]
  have htied : tied candidates probe = [] ∨ 2 ≤ (tied candidates probe).length := by
    rw [← List.length_eq_zero_iff, tied]
    split <;> omega
  rcases htied with htied | htied
  · have hnone : favoured candidates probe = [] := by
      by_contra hne
      exact hne (by rwa [tied, if_neg hne] at htied)
    rw [if_pos htied]
    rw [tied, if_pos hnone] at htied
    exact .noCandidate htied hnone
  have hsome : tied candidates probe ≠ [] := List.ne_nil_of_length_pos (by omega)
  rw [if_neg hsome]
  cases policy with
  | lexicographicallySmallest =>
    obtain ⟨c, hc⟩ := exists_isLeast hsome
    rw [breakTie_least hc]
    exact .byTieBreak rfl hnamed htied hc
  | leaveUnmatched =>
    rw [breakTie_leave]
    split
    · rename_i hnone
      refine .signatureTie rfl hnone ?_
      rw [tied] at htied
      split at htied
      · simp [hnone] at htied
      · exact htied
    · rename_i hsome
      have := List.length_pos_iff.2 hsome
      exact .ambiguous rfl (by omega) hfavoured

theorem Answers.eq_resolve {outcome : Outcome} (h : Answers policy candidates probe outcome) :
    resolve policy candidates probe = outcome := by
  cases h with
  | byName only => exact resolve_of_named only
  | bySignature unnamed only => exact resolve_of_favoured unnamed only
  | byTieBreak decides unnamed tie least =>
    rw [resolve_of_tie unnamed (favoured_of_tie tie), if_neg (List.ne_nil_of_mem least.1), decides,
      breakTie_least least]
  | ambiguous leaves several tie =>
    have hnamed : named candidates probe ≠ [] := List.ne_nil_of_length_pos (by omega)
    rw [resolve_of_tie (by omega) tie, if_neg (tied_ne_nil (.inl hnamed)), if_neg hnamed, leaves,
      breakTie_leave]
  | signatureTie leaves unnamed tie =>
    have hfavoured : favoured candidates probe ≠ [] := List.ne_nil_of_length_pos (by omega)
    rw [resolve_of_tie (by simp [unnamed]) (by omega), if_neg (tied_ne_nil (.inr hfavoured)),
      if_pos unnamed, leaves, breakTie_leave]
  | noCandidate unnamed unfavoured =>
    rw [resolve_of_tie (by simp [unnamed]) (by simp [unfavoured]), tied, if_pos unfavoured,
      if_pos unnamed]

end CrateTrace.Correlation
