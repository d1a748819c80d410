/-!
# The fewest digits that read back

Every finite double is an interval of reals that round to it. Of the decimal grids, tried from
coarse to fine, the first with a point in that interval gives the shortest numeral, and of its
points the one nearest to the double is taken.
-/

namespace CrateTrace.Decimal

/-- The number `digits * 10 ^ exponent`. -/
structure Numeral where
  digits : Nat
  exponent : Int
deriving DecidableEq, Repr

/-- The interval of reals that round to one positive double, in units of `2 ^ scale`. Its ends
belong to it when `closed` holds. -/
structure Interval where
  low : Nat
  middle : Nat
  high : Nat
  scale : Int
  closed : Bool

/-- The weight of the first bit of a significand, which is not stored. -/
def leadingBit : Nat := 0x10000000000000

/-- The interval of a double with these bits; the sign is ignored. At a power of two the
neighbour below is only half as far away as the one above. -/
def Interval.ofBits (bits : UInt64) : Interval :=
  let fraction := bits.toNat % leadingBit
  let biased := bits.toNat / leadingBit % 0x800
  let significand := if biased = 0 then fraction else fraction + leadingBit
  { low := 4 * significand - (if fraction = 0 ∧ 1 < biased then 1 else 2)
    middle := 4 * significand
    high := 4 * significand + 2
    scale := (max biased 1 : Nat) - 1077
    closed := significand % 2 = 0 }

/-- `n * 2 ^ scale` and `10 ^ exponent` over a common denominator. -/
def onGrid (scale exponent : Int) (n : Nat) : Nat × Nat :=
  (n * Nat.pow 2 scale.toNat * Nat.pow 10 (-exponent).toNat,
    Nat.pow 2 (-scale).toNat * Nat.pow 10 exponent.toNat)

/-- The interval holds the point `point * 10 ^ exponent`. -/
def Interval.holds (i : Interval) (exponent : Int) (point : Nat) : Bool :=
  let (low, unit) := onGrid i.scale exponent i.low
  let (high, _) := onGrid i.scale exponent i.high
  if i.closed then low ≤ point * unit && point * unit ≤ high
  else low < point * unit && point * unit < high

/-- The point of the grid with steps `10 ^ exponent` that stands for the interval: of the two
neighbours of its middle that it holds the nearer, and of two as near the even one. -/
def Interval.point? (i : Interval) (exponent : Int) : Option Nat :=
  let (middle, unit) := onGrid i.scale exponent i.middle
  let below := middle / unit
  match i.holds exponent below, i.holds exponent (below + 1) with
  | false, false => none
  | true, false => some below
  | false, true => some (below + 1)
  | true, true =>
    let past := 2 * (middle - below * unit)
    if past < unit ∨ (past = unit ∧ below % 2 = 0) then some below else some (below + 1)

/-- The exponent of a decimal grid with no more than one digit for the interval. -/
def Interval.coarsest (i : Interval) : Int :=
  let (n, d) := onGrid i.scale 0 i.middle
  if d ≤ n then ((Nat.toDigits 10 (n / d)).length : Int) - 1
  else 1 - ((Nat.toDigits 10 (d / n)).length : Int)

/-- The last zeros of the digits go into the exponent. -/
def Numeral.strip (n : Numeral) : Numeral :=
  if h : n.digits ≠ 0 ∧ n.digits % 10 = 0 then strip ⟨n.digits / 10, n.exponent + 1⟩ else n
termination_by n.digits
decreasing_by obtain ⟨h, _⟩ := h; omega

/-- Seventeen digits tell any two doubles apart, so the search stops there at the latest. -/
def Interval.shortest (i : Interval) : Numeral :=
  match (List.range 18).findSome? fun (k : Nat) =>
      (i.point? (i.coarsest - k)).map (Numeral.mk · (i.coarsest - k)) with
  | some numeral => numeral.strip
  | none => ⟨0, 0⟩

/-- The shortest numeral for the magnitude of a finite double. -/
def shortest (x : Float) : Numeral :=
  if x.toBits <<< 1 == 0 then ⟨0, 0⟩ else (Interval.ofBits x.toBits).shortest

end CrateTrace.Decimal
