/-!
# The shortest decimal that reads back

A finite binary number is `mantissa · 2 ^ exponent`. The reals that round to it form an interval
around it, which reaches half way to its two neighbours. `shortest` looks for a decimal in that
interval with as few digits as possible: for one, two, … seventeen digits it tries the two points of
the decimal grid next to the number, and the first grid with a hit decides. Of two hits the nearer
one is taken, and a `Tie` says which one when they are equally near. All of it is arithmetic on
natural numbers.
-/

namespace SearchBox.Number

/-- The nonnegative number `mantissa · 2 ^ exponent`. -/
structure Binary where
  mantissa : Nat
  exponent : Int

/-- The nonnegative number `digits · 10 ^ exponent`. -/
structure Decimal where
  digits : Nat
  exponent : Int

/-- Which of two equally near decimals is taken. -/
inductive Tie
  | up
  | even
  deriving DecidableEq

/-! ### The interval of a number -/

/-- The numerator and the denominator of `n · 2 ^ e`. -/
def scaled (n : Nat) (e : Int) : Nat × Nat :=
  if 0 ≤ e then (n * Nat.pow 2 e.toNat, 1) else (n, Nat.pow 2 (-e).toNat)

/-- A double is normal with the least mantissa, so the neighbour below it is half as far away. -/
def Binary.isBoundary (x : Binary) : Bool := x.mantissa == Nat.pow 2 52 && decide (-1074 < x.exponent)

/-- A number and the ends of its interval in a common unit: `low / unit`, `middle / unit` and
`high / unit`, the ends belonging to it when `closed`. -/
structure Interval where
  low : Nat
  middle : Nat
  high : Nat
  unit : Nat
  closed : Bool

/-- The reals that round to the number; half a step is two quarters of the last place. -/
def Binary.interval (x : Binary) : Interval :=
  let below := if x.isBoundary then 1 else 2
  let (factor, unit) := scaled 1 (x.exponent - 2)
  { low := (4 * x.mantissa - below) * factor
    middle := 4 * x.mantissa * factor
    high := (4 * x.mantissa + 2) * factor
    unit
    closed := x.mantissa % 2 == 0 }

/-- The same interval with ten to the power `e` as the unit of measure. -/
def Interval.inPowersOfTen (i : Interval) (e : Int) : Interval :=
  if 0 ≤ e then { i with unit := i.unit * Nat.pow 10 e.toNat }
  else
    let f := Nat.pow 10 (-e).toNat
    { i with low := i.low * f, middle := i.middle * f, high := i.high * f }

/-- The whole number lies in the interval. -/
def Interval.holds (i : Interval) (n : Nat) : Bool :=
  if i.closed then i.low ≤ n * i.unit && n * i.unit ≤ i.high
  else i.low < n * i.unit && n * i.unit < i.high

/-! ### The search -/

/-- The whole number in the interval next to its middle, if there is one. -/
def Interval.nearest? (tie : Tie) (i : Interval) : Option Nat :=
  let n := i.middle / i.unit
  let rest := i.middle % i.unit
  match i.holds n, i.holds (n + 1) with
  | false, false => none
  | true, false => some n
  | false, true => some (n + 1)
  | true, true =>
    if 2 * rest < i.unit then some n
    else if i.unit < 2 * rest then some (n + 1)
    else
      match tie with
      | .up => some (n + 1)
      | .even => some (if n % 2 = 0 then n else n + 1)

/-- The exponent of the first decimal digit of `middle / unit`, for a number above `10 ^ -400`. -/
def Interval.firstPlace (i : Interval) : Int :=
  (Nat.toDigits 10 (i.middle * Nat.pow 10 400 / i.unit)).length - 401

/-- Drops the zeros at the end of the digits, at most `fuel` of them. -/
def Decimal.normalized (d : Decimal) : Nat → Decimal
  | 0 => d
  | fuel + 1 =>
    if d.digits ≠ 0 ∧ d.digits % 10 = 0 then
      Decimal.normalized ⟨d.digits / 10, d.exponent + 1⟩ fuel
    else d

/-- A decimal with the fewest digits that rounds to the number, and the nearest one of those. -/
def Binary.shortest (tie : Tie) (x : Binary) : Decimal :=
  if x.mantissa = 0 then ⟨0, 0⟩
  else
    let place := x.interval.firstPlace
    let onGrid (count : Nat) : Option Decimal :=
      let e := place - count
      ((x.interval.inPowersOfTen e).nearest? tie).map fun n => ⟨n, e⟩
    match (List.range 17).findSome? onGrid with
    | some d => d.normalized 17
    | none => ⟨0, 0⟩

end SearchBox.Number
