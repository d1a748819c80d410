import CrateTrace.Name.Printer
import CrateTrace.Proofs.Name.Grammar
import CrateTrace.Proofs.Name.Lexing

/-!
# Brackets in a name

Every phrase closes the brackets that it opens, and outside of its brackets it has neither `as`
nor `for`. So a trait clause can be taken apart in one way only.
-/

namespace CrateTrace.Name

/-! ## Depth -/

/-- How many brackets are open behind a lexeme. At depth 0 no phrase goes on over a `>`, an `as` or
a `for`. -/
def Lexeme.depthBehind (depth : Nat) : Lexeme → Option Nat
  | .less => some (depth + 1)
  | .greater => if depth = 0 then none else some (depth - 1)
  | .asWord | .forWord => if depth = 0 then none else some depth
  | _ => some depth

def depthBehind (depth : Nat) (text : List Lexeme) : Option Nat :=
  text.foldlM Lexeme.depthBehind depth

/-- With `least` or more brackets open, the text leaves the depth as it was. -/
def BalancedFrom (least : Nat) (text : List Lexeme) : Prop :=
  ∀ depth, least ≤ depth → depthBehind depth text = some depth

theorem depthBehind_cons (depth : Nat) (l : Lexeme) (text : List Lexeme) :
    depthBehind depth (l :: text) = (l.depthBehind depth).bind (depthBehind · text) := by
  simp [depthBehind]

theorem depthBehind_append (depth : Nat) (text text' : List Lexeme) :
    depthBehind depth (text ++ text') = (depthBehind depth text).bind (depthBehind · text') := by
  simp [depthBehind, List.foldlM_append]

theorem balanced_nil (least : Nat) : BalancedFrom least [] := fun _ _ => rfl

/-- A lexeme that is no bracket and no keyword between two paths. -/
theorem balanced_plain {l : Lexeme} (h : l ∉ [.less, .greater, .asWord, .forWord]) (least : Nat) :
    BalancedFrom least [l] := by
  intro depth _
  simp only [List.mem_cons, List.not_mem_nil, or_false, not_or] at h
  cases l <;> first | rfl | simp at h

theorem balanced_forWord : BalancedFrom 1 [.forWord] := by
  intro depth hdepth
  have hopen : depth ≠ 0 := by omega
  simp [depthBehind, Lexeme.depthBehind, hopen]

theorem BalancedFrom.append {least : Nat} {text text' : List Lexeme} (h : BalancedFrom least text)
    (h' : BalancedFrom least text') : BalancedFrom least (text ++ text') := by
  intro depth hdepth
  rw [depthBehind_append, h depth hdepth]
  exact h' depth hdepth

theorem BalancedFrom.cons {least : Nat} {l : Lexeme} {text : List Lexeme}
    (h : BalancedFrom least text) (hl : BalancedFrom least [l]) :
    BalancedFrom least (l :: text) :=
  hl.append h

theorem BalancedFrom.inside {text : List Lexeme} (h : BalancedFrom 0 text) : BalancedFrom 1 text :=
  fun depth _ => h depth (Nat.zero_le depth)

theorem BalancedFrom.bracket {text : List Lexeme} (h : BalancedFrom 1 text) :
    BalancedFrom 0 (.less :: text ++ [.greater]) := by
  intro depth _
  have hinside := h (depth + 1) (by omega)
  rw [depthBehind_append, depthBehind_cons, Lexeme.depthBehind, Option.bind_some, hinside]
  rfl

/-! ## Phrases -/

theorem balanced_refMark (byRef : Bool) : BalancedFrom 0 (refMark byRef) := by
  cases byRef with
  | false => exact balanced_nil 0
  | true => exact balanced_plain (by simp) 0

theorem Derives.balanced {phrase : Phrase} {text : List Lexeme} (h : Derives phrase text) :
    BalancedFrom 0 text := by
  induction h with
  | name before word => exact balanced_plain (by simp) 0
  | genericName before word hargs ih => exact ih.cons (balanced_plain (by simp) 0)
  | closure before index => exact balanced_plain (by simp) 0
  | inherentImpl before htype ih =>
    exact (ih.inside.cons (balanced_plain (by simp) 1)).bracket
  | traitImpl before htrait htype ihtrait ihtype =>
    have hfor := ihtype.inside.cons balanced_forWord
    have hinside := (ihtrait.inside.append hfor).cons (balanced_plain (l := .implWord) (by simp) 1)
    simpa using hinside.bracket
  | turbofish before kind hargs ih => exact ih
  | noMore before => exact balanced_nil 0
  | more hsegment hmore ihsegment ihmore =>
    exact (ihsegment.cons (balanced_plain (by simp) 0)).append ihmore
  | path hsegment hmore ihsegment ihmore => exact ihsegment.append ihmore
  | type byRef hpath ih => exact (balanced_refMark byRef).append ih
  | lifetime args byRef name =>
    exact (balanced_refMark byRef).append (balanced_plain (by simp) 0)
  | param args byRef hword => exact (balanced_refMark byRef).append (balanced_plain (by simp) 0)
  | concrete args byRef hpath hlonger ih => exact (balanced_refMark byRef).append ih
  | lastArgument hargument ih => exact ih
  | moreArguments hargument hmore ihargument ihmore =>
    exact ihargument.append (ihmore.cons (balanced_plain (by simp) 0))
  | generics hargs ih => exact ih.inside.bracket

/-! ## One way to divide -/

/-- A balanced text ends at the first lexeme on which no phrase goes on. -/
theorem BalancedFrom.unique {text text' rest rest' : List Lexeme} {l l' : Lexeme}
    (htext : BalancedFrom 0 text) (htext' : BalancedFrom 0 text') (hl : l.depthBehind 0 = none)
    (hl' : l'.depthBehind 0 = none) (h : text ++ l :: rest = text' ++ l' :: rest') :
    text = text' ∧ l = l' ∧ rest = rest' := by
  -- A longer text would go on over the lexeme behind the shorter one.
  have hshort : ∀ {short more : List Lexeme} {l : Lexeme}, BalancedFrom 0 short →
      l.depthBehind 0 = none → ¬ BalancedFrom 0 (short ++ l :: more) := by
    intro short more l hshort hl hlong
    have hdepth := hlong 0 (Nat.le_refl 0)
    rw [depthBehind_append, hshort 0 (Nat.le_refl 0), Option.bind_some, depthBehind_cons, hl]
      at hdepth
    cases hdepth
  obtain ⟨more, rfl, hmore⟩ | ⟨more, rfl, hmore⟩ := List.append_eq_append_iff.mp h
  · cases more with
    | nil => simpa using hmore
    | cons first more =>
      obtain ⟨rfl, -⟩ : l = first ∧ _ := by simpa using hmore
      exact absurd htext' (hshort htext hl)
  · cases more with
    | nil => simpa [eq_comm] using hmore
    | cons first more =>
      obtain ⟨rfl, -⟩ : l' = first ∧ _ := by simpa using hmore
      exact absurd htext (hshort htext' hl')

/-! ## Trait clauses -/

/-- What a trait clause says, however it is written: the type, the trait and what comes behind. -/
def ReadsClause (d : Declaration) (type implementedTrait rest : List Lexeme) : Prop :=
  ∃ (t : TypeRef) (path segments : List Segment), Derives (.type t) type ∧
    Derives (.path path) implementedTrait ∧ Derives (.segments [] segments) rest ∧
    d = ⟨segments, some ⟨path, t⟩⟩

/-- A `<` that another `<impl …>` does not explain, with a keyword in front of its `>`, opens a
trait clause. -/
theorem DerivesDeclaration.clause {d : Declaration} {mark : Lexeme}
    {first second rest : List Lexeme} (hfirst : BalancedFrom 0 first)
    (hsecond : BalancedFrom 0 second)
    (hmark : mark = .asWord ∨ mark = .forWord ∧ first.head? ≠ some .implWord)
    (h : DerivesDeclaration d (.less :: first ++ mark :: second ++ .greater :: rest)) :
    mark = .asWord ∧ ReadsClause d first second rest ∨
      mark = .forWord ∧ ReadsClause d second first rest := by
  have hends : mark.depthBehind 0 = none := by
    obtain rfl | ⟨rfl, -⟩ := hmark <;> rfl
  have hclose : mark ≠ .greater := by
    obtain rfl | ⟨rfl, -⟩ := hmark <;> simp
  generalize hall : .less :: first ++ mark :: second ++ .greater :: rest = all at h
  cases h with
  | @mk start segments head more hhead hmore =>
    cases hhead with
    | @asClause path t text text' ht hpath =>
      have hsplit : text ++ .asWord :: (text' ++ .greater :: more) =
        first ++ mark :: (second ++ .greater :: rest) := by simpa using hall.symm
      obtain ⟨rfl, rfl, hsplit'⟩ := ht.balanced.unique hfirst rfl hends hsplit
      obtain ⟨rfl, -, rfl⟩ := hpath.balanced.unique hsecond rfl rfl hsplit'
      exact .inl ⟨rfl, t, path, segments, ht, hpath, hmore, rfl⟩
    | @forClause path t text text' hpath ht =>
      have hsplit : text ++ .forWord :: (text' ++ .greater :: more) =
        first ++ mark :: (second ++ .greater :: rest) := by simpa using hall.symm
      obtain ⟨rfl, rfl, hsplit'⟩ := hpath.balanced.unique hfirst rfl hends hsplit
      obtain ⟨rfl, -, rfl⟩ := ht.balanced.unique hsecond rfl rfl hsplit'
      exact .inr ⟨rfl, t, path, segments, ht, hpath, hmore, rfl⟩
    | @bracketed path text hpath =>
      have hsplit : text ++ .greater :: more =
        first ++ mark :: (second ++ .greater :: rest) := by simpa using hall.symm
      exact absurd (hpath.balanced.unique hfirst rfl hends hsplit).2.1.symm hclose
    | @plain path text hsegment hstart =>
      -- An `<impl …>` is the only segment that starts with `<`.
      generalize hbefore : ([] : List Segment) = before at hsegment
      cases hsegment with
      | name before word => simp at hall
      | genericName before word hargs => simp at hall
      | closure before index => simp at hall
      | @inherentImpl before t text ht =>
        have himpl := ht.balanced.cons (balanced_plain (l := .implWord) (by simp) 0)
        have hsplit : (.implWord :: text) ++ .greater :: more =
          first ++ mark :: (second ++ .greater :: rest) := by simpa using hall.symm
        exact absurd (himpl.unique hfirst rfl hends hsplit).2.1.symm hclose
      | @traitImpl before path t text text' hpath ht =>
        have himpl := hpath.balanced.cons (balanced_plain (l := .implWord) (by simp) 0)
        have hsplit : (.implWord :: text) ++ .forWord :: (text' ++ .greater :: more) =
          first ++ mark :: (second ++ .greater :: rest) := by simpa using hall.symm
        obtain ⟨rfl, rfl, -⟩ := himpl.unique hfirst rfl hends hsplit
        simp at hmark
      | turbofish before kind hargs => simp at hbefore

/-- The two ways to write a trait clause say the same, if the trait does not start with a keyword of
its own. -/
theorem derivesDeclaration_as_iff_for {d : Declaration} {type implementedTrait rest : List Lexeme}
    (htype : BalancedFrom 0 type) (htrait : BalancedFrom 0 implementedTrait)
    (hstart : implementedTrait.head? ≠ some .implWord) :
    DerivesDeclaration d (.less :: type ++ .asWord :: implementedTrait ++ .greater :: rest) ↔
      DerivesDeclaration d (.less :: implementedTrait ++ .forWord :: type ++ .greater :: rest) := by
  constructor
  · intro h
    obtain ⟨-, t, path, segments, ht, hpath, hmore, rfl⟩ | ⟨hmark, -⟩ :=
      h.clause htype htrait (.inl rfl)
    · simpa using DerivesDeclaration.mk (.forClause hpath ht) hmore
    · cases hmark
  · intro h
    obtain ⟨hmark, -⟩ | ⟨-, t, path, segments, ht, hpath, hmore, rfl⟩ :=
      h.clause htrait htype (.inr ⟨rfl, hstart⟩)
    · cases hmark
    · simpa using DerivesDeclaration.mk (.asClause ht hpath) hmore

end CrateTrace.Name
