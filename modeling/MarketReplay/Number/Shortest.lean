/-
The shortest decimal that reads back as a given float.

The reals that round to a float form an interval around it, whose ends belong
to it exactly when the significand is even. For one digit, two digits and so
on, the two neighbours of the float on the decimal grid of that many digits
are tested against the interval; the first grid with a hit decides the number
of digits, and of two hits the nearer is taken. All of it is arithmetic on
natural numbers, with the float, the ends of its interval and the grid over
one denominator.
-/
import MarketReplay.Number.Binary64

namespace MarketReplay.Shortest

open Binary64 (Parts)

/-- A decimal `coefficient · 10 ^ exponent`. -/
structure Decimal where
  coefficient : Nat
  exponent : Int
deriving DecidableEq, Repr

-- ============================================================ the interval

/-- A positive float in quarters of its last place: the float itself is
`4 · significand` of them, and its neighbours' midpoints are the two ends. -/
structure Interval where
  low : Nat
  middle : Nat
  high : Nat
  /-- The power of two that one quarter weighs. -/
  exponent : Int
  /-- Do the ends themselves round to the float? -/
  closed : Bool

/-- The interval of a float. Below a power of two floats lie twice as close,
so there the lower end is half as far. -/
def Interval.ofParts (parts : Parts) : Interval :=
  let m := parts.significand
  let narrow := m = twoTo 52 ∧ -1074 < parts.exponent
  { low := if narrow then 4 * m - 1 else 4 * m - 2
    middle := 4 * m
    high := 4 * m + 2
    exponent := parts.exponent - 2
    closed := m % 2 = 0 }

-- ================================================================ the grid

/-- A count of quarters over the grid `10 ^ place`: the numerator. -/
def scaled (i : Interval) (place : Int) (quarters : Nat) : Nat :=
  quarters * twoTo i.exponent.toNat * tenTo (-place).toNat

/-- The denominator that goes with `scaled`. -/
def unit (i : Interval) (place : Int) : Nat :=
  twoTo (-i.exponent).toNat * tenTo place.toNat

/-- Does the grid point `coefficient · 10 ^ place` round to the float? -/
def inside (i : Interval) (place : Int) (coefficient : Nat) : Bool :=
  let point := coefficient * unit i place
  let low := scaled i place i.low
  let high := scaled i place i.high
  if i.closed then low ≤ point && point ≤ high else low < point && point < high

/-- The point of the grid that reads back as the float, if there is one: of
the two neighbours the nearer, of two equally near the even one. -/
def onGrid? (i : Interval) (place : Int) : Option Nat :=
  let numerator := scaled i place i.middle
  let denominator := unit i place
  let below := numerator / denominator
  let twice := 2 * (numerator % denominator)
  match inside i place below, inside i place (below + 1) with
  | true, true =>
      if twice < denominator ∨ (twice = denominator ∧ below % 2 = 0) then some below
      else some (below + 1)
  | true, false => some below
  | false, true => some (below + 1)
  | false, false => none

/-- The least place whose power of ten exceeds the float. -/
def magnitude (i : Interval) : Int :=
  let guess : Int := ((i.middle.log2 : Int) + i.exponent) * 30103 / 100000
  let exceeds (place : Int) : Bool := scaled i place i.middle < unit i place
  if exceeds guess then guess
  else if exceeds (guess + 1) then guess + 1
  else guess + 2

-- ============================================================== the search

/-- The first grid with a hit, from `digits` digits on; `tries` bounds the
search, which ends by seventeen digits. -/
def search (i : Interval) (top : Int) (digits : Nat) : Nat → Decimal
  | 0 => ⟨scaled i (top - digits) i.middle / unit i (top - digits), top - digits⟩
  | tries + 1 =>
      match onGrid? i (top - digits) with
      | some coefficient => ⟨coefficient, top - digits⟩
      | none => search i top (digits + 1) tries

/-- A decimal without trailing zeros in its coefficient. -/
def Decimal.trim (d : Decimal) : Decimal :=
  if d.coefficient = 0 then d
  else if d.coefficient % 10 = 0 then trim ⟨d.coefficient / 10, d.exponent + 1⟩
  else d
termination_by d.coefficient
decreasing_by
  show d.coefficient / 10 < d.coefficient
  omega

/-- The shortest decimal for the size of a float that is not zero. -/
def decimal (parts : Parts) : Decimal :=
  let i := Interval.ofParts parts
  (search i (magnitude i) 1 17).trim

end MarketReplay.Shortest
