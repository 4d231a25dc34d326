import OData.Number.Double

namespace OData

-- Powers of numbers are those of the core library, whatever else is in scope.
attribute [local instance (high)] instPowNat

/-- A positive decimal, `digits * 10 ^ exponent`. -/
structure Decimal where
  digits : Nat
  exponent : Int
deriving DecidableEq, Repr

/-- How far the first digit stands from the units: `1.5e3` has 3. -/
def Decimal.scientificExponent (d : Decimal) : Int :=
  d.exponent + (Nat.toDigits 10 d.digits).length - 1

inductive Tie
  | up
  | even
deriving DecidableEq, Repr

namespace FiniteDouble

/-- The numbers that round to a double, in quarters of its last place: from `low` to `high` around
`middle`, all times `2 ^ exponent`; the ends belong to it when `closed`. -/
structure Interval where
  low : Nat
  middle : Nat
  high : Nat
  exponent : Int
  closed : Bool

/-- Below a power of two the doubles lie twice as close as above it. -/
def interval (x : FiniteDouble) : Interval where
  low := if x.mantissa = 2 ^ (52 : Nat) ∧ -1074 < x.exponent then 4 * x.mantissa - 1
    else 4 * x.mantissa - 2
  middle := 4 * x.mantissa
  high := 4 * x.mantissa + 2
  exponent := x.exponent - 2
  closed := x.mantissa % 2 = 0

/-- The interval and the grid `10 ^ k` in a common unit: `scale` for the interval's numbers, `step`
for the grid. -/
def gridUnits (i : Interval) (k : Int) : Nat × Nat :=
  (2 ^ i.exponent.toNat * 10 ^ (-k).toNat, 10 ^ k.toNat * 2 ^ (-i.exponent).toNat)

/-- The point of the grid `10 ^ k` nearest to the middle of the interval, where one of its two
neighbours there lies in the interval. -/
def Interval.nearest? (tie : Tie) (i : Interval) (k : Int) : Option Nat :=
  let (scale, step) := gridUnits i k
  let inside (n : Nat) : Bool :=
    if i.closed then i.low * scale ≤ n * step ∧ n * step ≤ i.high * scale
    else i.low * scale < n * step ∧ n * step < i.high * scale
  let middle := i.middle * scale
  let below := middle / step
  let toBelow := middle - below * step
  let toAbove := (below + 1) * step - middle
  match inside below && below != 0, inside (below + 1) with
  | false, false => none
  | true, false => some below
  | false, true => some (below + 1)
  | true, true =>
    if toBelow < toAbove then some below
    else if toAbove < toBelow then some (below + 1)
    else match tie with
      | .up => some (below + 1)
      | .even => if below % 2 = 0 then some below else some (below + 1)

/-- The first hit on the grids `10 ^ k`, `10 ^ (k - 1)`, …; where `fuel` runs out, the point below
the middle on the grid that was reached. -/
def Interval.firstHit (tie : Tie) (i : Interval) (k : Int) : (fuel : Nat) → Decimal
  | 0 =>
    let (scale, step) := gridUnits i k
    ⟨i.middle * scale / step, k⟩
  | fuel + 1 =>
    match i.nearest? tie k with
    | some n => ⟨n, k⟩
    | none => i.firstHit tie (k - 1) fuel

/-- The shortest decimal that denotes the magnitude of a nonzero double: on the first of the grids
`10 ^ k`, from coarse to fine, that has a point among the numbers that round to the double, the
point nearest to it. The search starts on a grid above the double, and a grid with 17 digits always
has a hit. -/
def shortest (tie : Tie) (x : FiniteDouble) : Decimal :=
  let (numerator, denominator) := x.ratio
  let start : Int := (floorLog2 numerator denominator + 1) * 30103 / 100000 + 2
  x.interval.firstHit tie start 22

end FiniteDouble

end OData
