/-!
# Readings

What a rule reads at the front of an input. Each reading takes at least one item, so that a reader
which calls its rules on the rest comes to an end.
-/

namespace CrateTrace

structure Parsed {σ : Type} (input : List σ) (α : Type) where
  value : α
  rest : List σ
  shorter : rest.length < input.length

/-- The same reading, at the front of a longer input and with a value made from the one read. -/
def Parsed.widen {σ α β : Type} {a b : List σ} (f : α → β) (p : Parsed a α)
    (h : a.length ≤ b.length) : Parsed b β :=
  ⟨f p.value, p.rest, Nat.lt_of_lt_of_le p.shorter h⟩

@[simp] theorem Parsed.widen_value {σ α β : Type} {a b : List σ} (f : α → β) (p : Parsed a α)
    (h : a.length ≤ b.length) : (p.widen f h).value = f p.value := rfl

@[simp] theorem Parsed.widen_rest {σ α β : Type} {a b : List σ} (f : α → β) (p : Parsed a α)
    (h : a.length ≤ b.length) : (p.widen f h).rest = p.rest := rfl

/-- The same reading with another value. -/
def Parsed.map {σ α β : Type} {input : List σ} (f : α → β) (p : Parsed input α) : Parsed input β :=
  ⟨f p.value, p.rest, p.shorter⟩

/-- What is left of an input from which any number of items may have been taken. -/
abbrev Rest {σ : Type} (input : List σ) := { rest : List σ // rest.length ≤ input.length }

/-- Nothing is taken. -/
def Rest.all {σ : Type} (input : List σ) : Rest input := ⟨input, Nat.le_refl _⟩

/-- The first item is taken. -/
def Rest.behind {σ : Type} (first : σ) (rest : List σ) : Rest (first :: rest) :=
  ⟨rest, Nat.le_succ _⟩

/-- What is left of a rest is left of the whole. -/
def Rest.andThen {σ : Type} {input : List σ} (r : Rest input) (r' : Rest r.1) : Rest input :=
  ⟨r'.1, Nat.le_trans r'.2 r.2⟩

/-- What is left of the items behind the first one. -/
def Rest.within {σ : Type} (first : σ) {rest : List σ} (r : Rest rest) : Rest (first :: rest) :=
  ⟨r.1, Nat.le_trans r.2 (Nat.le_succ _)⟩

/-- The items at the front that satisfy `p`, and the rest. -/
def spanOf {σ : Type} (p : σ → Bool) (input : List σ) : List σ × Rest input :=
  (input.takeWhile p, ⟨input.dropWhile p, (List.dropWhile_suffix p).length_le⟩)

/-- What is left behind the items at the front that satisfy `p`. -/
def dropOf {σ : Type} (p : σ → Bool) (input : List σ) : Rest input :=
  ⟨input.dropWhile p, (List.dropWhile_suffix p).length_le⟩

end CrateTrace
