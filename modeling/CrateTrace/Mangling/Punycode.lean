/-!
# Punycode

Characters outside ASCII, coded as gaps between insertions (RFC 3492). No more than 128 characters
are decoded, and no number on the way may take more than 64 bits.
-/

namespace CrateTrace.Mangling.Punycode

def digitValue? (c : Char) : Option Nat :=
  if 'a' ≤ c ∧ c ≤ 'z' then some (c.toNat - 'a'.toNat)
  else if c.isDigit then some (26 + (c.toNat - '0'.toNat))
  else none

/-- The digits below this one are the last of their number. -/
def threshold (place bias : Nat) : Nat := min (max (place - bias) 1) 26

/-- The number at the front, whose digits so far sum up to `sum`, and what follows it. -/
def delta (bias place weight sum : Nat) : List Char → Option (Nat × List Char)
  | [] => none
  | c :: rest =>
    match digitValue? c with
    | none => none
    | some d =>
      let t := threshold (place + 36) bias
      let sum := sum + d * weight
      if UInt64.size ≤ d * weight ∨ UInt64.size ≤ sum then none
      else if d < t then some (sum, rest)
      else if UInt64.size ≤ weight * (36 - t) then none
      else delta bias (place + 36) (weight * (36 - t)) sum rest

theorem length_lt_of_delta {bias place weight sum value : Nat} {input rest : List Char}
    (h : delta bias place weight sum input = some (value, rest)) : rest.length < input.length := by
  induction input generalizing place weight sum with
  | nil => simp [delta] at h
  | cons c input ih =>
    rw [delta] at h
    split at h
    · simp at h
    · dsimp only at h
      split at h
      · simp at h
      · split at h
        · simp only [Option.some.injEq, Prod.mk.injEq] at h
          simp [h.2]
        · split at h
          · simp at h
          · have := ih h
            simp only [List.length_cons]
            omega

/-- How far the thresholds move up for large gaps. -/
def adaptFrom (delta shift : Nat) : Nat :=
  if 455 < delta then adaptFrom (delta / 35) (shift + 36) else shift + 36 * delta / (delta + 38)
termination_by delta
decreasing_by omega

/-- The bias after a gap that leaves `length` characters. -/
def adapt (delta length damp : Nat) : Nat :=
  let delta := delta / damp
  adaptFrom (delta + delta / length) 0

/-- Inserts characters into those decoded so far. The next one has a code of at least `code`, and
goes behind the first `place` ones unless the gap says otherwise. -/
def insertAll (decoded : List Char) (code place bias damp : Nat) (input : List Char) :
    Option (List Char) :=
  match input with
  | [] => some decoded
  | c :: digits =>
    match h : delta bias 0 1 0 (c :: digits) with
    | none => none
    | some (gap, rest) =>
      let length := decoded.length + 1
      let code := code + (place + gap) / length
      let place := (place + gap) % length
      if UInt64.size ≤ place + gap ∨ 128 < length ∨ ¬ code.isValidChar then none
      else
        insertAll (decoded.take place ++ Char.ofNat code :: decoded.drop place) code (place + 1)
          (adapt gap length damp) 2 rest
termination_by input.length
decreasing_by exact length_lt_of_delta h

/-- The characters that the gaps insert into the basic ones. At least one has to be inserted. -/
def decode (basic gaps : List Char) : Option (List Char) :=
  if gaps = [] ∨ 128 < basic.length then none else insertAll basic 0x80 0 72 700 gaps

end CrateTrace.Mangling.Punycode
