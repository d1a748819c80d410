import CrateTrace.Name.Parser

/-!
# Where the parser finds faults

Whatever rule refuses its input, it points into the lexemes that it was given: at one that is left,
from one on, from one to another, or at the end.
-/

namespace CrateTrace.Name

/-- The place lies in an input of `n` lexemes. Only `next` may be its end. -/
def Place.Within (n : Nat) : Place → Prop
  | .next left => left ≤ n
  | .onward left => 0 < left ∧ left ≤ n
  | .between left upTo => upTo < left ∧ left ≤ n

variable {n : Nat} {f : Fault}

/-! ## Small rules -/

theorem fault_within {α : Type} {cause : Cause} {input : List Lexeme} (hn : input.length ≤ n)
    (h : (fault cause input : Except Fault α) = .error f) : f.place.Within n := by
  cases h
  exact hn

theorem close_within {opened : Nat} {input : List Lexeme} (hopened : 0 < opened ∧ opened ≤ n)
    (hn : input.length ≤ n) (h : close opened input = .error f) : f.place.Within n := by
  unfold close at h
  split at h
  · cases h
  · cases h
    exact hopened
  · exact fault_within hn h

theorem traitPath_within {type : TypeRef} {input : List Lexeme} (hn : input.length ≤ n)
    (h : traitPath type input = .error f) : f.place.Within n := by
  unfold traitPath at h
  split at h
  · exact fault_within hn h
  · cases h

/-! ## The rules -/

mutual

theorem segment_within (before : List Segment) (input : List Lexeme) (hn : input.length ≤ n)
    (h : segment before input = .error f) : f.place.Within n := by
  unfold segment at h
  split at h
  · next word inner =>
    simp only [List.length_cons] at hn
    split at h
    · next e he =>
      cases h
      exact generics_within _ _ inner (by omega) (by omega) he
    · cases h
  · cases h
  · cases h
  · next inner =>
    simp only [List.length_cons] at hn
    split at h
    · next e he =>
      cases h
      exact implKind_within _ inner (by omega) (by omega) he
    · cases h
  · next inner _ =>
    simp only [List.length_cons] at hn
    split at h
    · next e he =>
      cases h
      exact generics_within _ _ inner (by omega) (by omega) he
    · next args _ =>
      split at h
      · cases h
      · cases h
        have hshorter := args.shorter
        exact ⟨by omega, by omega⟩
  all_goals exact fault_within hn h
termination_by 5 * input.length + 0
decreasing_by all_goals (subst_vars; simp only [List.length_cons] at *; omega)

theorem implKind_within (opened : Nat) (input : List Lexeme)
    (hopened : 0 < opened ∧ opened ≤ n) (hn : input.length ≤ n)
    (h : implKind opened input = .error f) : f.place.Within n := by
  unfold implKind at h
  split at h
  · next e he =>
    cases h
    exact typeRef_within input hn he
  · next first rest hrest hfirst =>
    split at h
    · next rest hrest =>
      have hshorter := hrest
      simp only [List.length_cons] at hshorter
      split at h
      · next e he =>
        cases h
        exact traitPath_within (by omega) he
      · next implementedTrait htrait =>
        split at h
        · next e he =>
          cases h
          exact typeRef_within rest (by omega) he
        · next type last hlast htype =>
          split at h
          · next e he =>
            cases h
            exact close_within hopened (by omega) he
          · cases h
    · split at h
      · next e he =>
        cases h
        exact close_within hopened (by omega) he
      · cases h
termination_by 5 * input.length + 4
decreasing_by all_goals (subst_vars; simp only [List.length_cons] at *; omega)

theorem moreSegments_within (before : List Segment) (input : List Lexeme)
    (hn : input.length ≤ n) (h : moreSegments before input = .error f) : f.place.Within n := by
  unfold moreSegments at h
  split at h
  · next rest =>
    simp only [List.length_cons] at hn
    split at h
    · next e he =>
      cases h
      exact segment_within before rest (by omega) he
    · next between rest' hrest' hsegment =>
      split at h
      · next e he =>
        cases h
        exact moreSegments_within between rest' (by omega) he
      · cases h
  · cases h
termination_by 5 * input.length + 1
decreasing_by all_goals (subst_vars; simp only [List.length_cons] at *; omega)

theorem path_within (input : List Lexeme) (hn : input.length ≤ n) (h : path input = .error f) :
    f.place.Within n := by
  unfold path at h
  split at h
  · next e he =>
    cases h
    exact segment_within [] input hn he
  · next first rest hrest hfirst =>
    split at h
    · next e he =>
      cases h
      exact moreSegments_within first rest (by omega) he
    · cases h
termination_by 5 * input.length + 2
decreasing_by all_goals omega

theorem typeRef_within (input : List Lexeme) (hn : input.length ≤ n)
    (h : typeRef input = .error f) : f.place.Within n := by
  unfold typeRef at h
  generalize splitRef input = mark at h
  obtain ⟨byRef, body, hbody⟩ := mark
  dsimp only at h
  split at h
  · next e he =>
    cases h
    exact path_within body (by omega) he
  · cases h
termination_by 5 * input.length + 3
decreasing_by all_goals omega

theorem genericArgument_within (args : Generics) (input : List Lexeme) (hn : input.length ≤ n)
    (h : genericArgument args input = .error f) : f.place.Within n := by
  unfold genericArgument at h
  generalize splitRef input = mark at h
  obtain ⟨byRef, body, hbody⟩ := mark
  dsimp only at h
  split at h
  · cases h
  · split at h
    · cases h
    · split at h
      · next e he =>
        cases h
        exact path_within body (by omega) he
      · cases h
termination_by 5 * input.length + 3
decreasing_by all_goals omega

theorem generics_within (opened : Nat) (args : Generics) (input : List Lexeme)
    (hopened : 0 < opened ∧ opened ≤ n) (hn : input.length ≤ n)
    (h : generics opened args input = .error f) : f.place.Within n := by
  unfold generics at h
  split at h
  · cases h
    exact hopened
  · next first others =>
    split at h
    · next e he =>
      cases h
      exact genericArgument_within args (first :: others) hn he
    · next between rest hrest hargument =>
      split at h
      · next rest hrest =>
        have hshorter := hrest
        simp only [List.length_cons] at hshorter hn
        split at h
        · next e he =>
          cases h
          exact generics_within opened between rest hopened (by omega) he
        · cases h
      · split at h
        · next e he =>
          cases h
          exact close_within hopened (by omega) he
        · cases h
termination_by 5 * input.length + 4
decreasing_by all_goals (subst_vars; simp only [List.length_cons] at *; omega)

end

/-! ## Declarations -/

theorem qualifiedHead_within {opened : Nat} {input : List Lexeme}
    (hopened : 0 < opened ∧ opened ≤ n) (hn : input.length ≤ n)
    (h : qualifiedHead opened input = .error f) : f.place.Within n := by
  unfold qualifiedHead at h
  split at h
  · next e he =>
    cases h
    exact typeRef_within input hn he
  · next first rest hrest hfirst =>
    split at h
    · next rest hrest =>
      simp only [List.length_cons] at hrest
      split at h
      · next e he =>
        cases h
        exact path_within rest (by omega) he
      · next implementedTrait last hlast htrait =>
        split at h
        · next e he =>
          cases h
          exact close_within hopened (by omega) he
        · cases h
    · next rest hrest =>
      simp only [List.length_cons] at hrest
      split at h
      · next e he =>
        cases h
        exact traitPath_within (by omega) he
      · split at h
        · next e he =>
          cases h
          exact typeRef_within rest (by omega) he
        · next type last hlast htype =>
          split at h
          · next e he =>
            cases h
            exact close_within hopened (by omega) he
          · cases h
    · split at h
      · exact fault_within (by omega) h
      · split at h
        · next e he =>
          cases h
          exact close_within hopened (by omega) he
        · cases h

theorem plainHead_within {input : List Lexeme} (hn : input.length ≤ n)
    (h : plainHead input = .error f) : f.place.Within n := by
  unfold plainHead at h
  split at h
  · next e he =>
    cases h
    exact segment_within [] input hn he
  · cases h

theorem head_within {input : List Lexeme} (hn : input.length ≤ n) (h : head input = .error f) :
    f.place.Within n := by
  unfold head at h
  split at h
  · exact plainHead_within hn h
  · simp only [List.length_cons] at hn
    split at h
    · next e he =>
      cases h
      exact qualifiedHead_within (by omega) (by omega) he
    · cases h
  · exact plainHead_within hn h

/-- The place of a fault lies in the input. -/
theorem declaration_within {input : List Lexeme} (h : declaration input = .error f) :
    f.place.Within input.length := by
  unfold declaration at h
  split at h
  · next e he =>
    cases h
    exact head_within (Nat.le_refl _) he
  · next start rest hrest hhead =>
    split at h
    · next e he =>
      cases h
      exact moreSegments_within start.segments rest (by omega) he
    · next segments last hlast hmore =>
      cases last with
      | nil => cases h
      | cons l last =>
        cases h
        exact ⟨Nat.succ_pos _, by omega⟩

end CrateTrace.Name
