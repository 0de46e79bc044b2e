/-
Numbers as 64-bit binary floats.

A finite float is a sign, a significand and a power of two, laid out in its 64
bits as one bit of sign, eleven bits of biased exponent and 52 bits of
fraction. `ofRatio` rounds a ratio of natural numbers to the nearest float, a
tie to the even significand, and gives infinity past the largest float: the
ratio is counted in units of the last place that its size leaves to a
significand, the count is rounded, and only then laid out in bits. `powerOfTen`
multiplies tens by repeated squaring: the result is exact up to the 22nd power
and carries the rounding of that order of multiplications beyond it.
-/
import MarketReplay.Number.Power

namespace MarketReplay.Binary64

-- ================================================================ rounding

/-- A ratio rounded to the nearest natural number, a tie to the even one. -/
def roundRatio (numerator denominator : Nat) : Nat :=
  let below := numerator / denominator
  let twice := 2 * (numerator % denominator)
  if twice < denominator ∨ (twice = denominator ∧ below % 2 = 0) then below
  else below + 1

/-- The greatest power of two, by its exponent, that a positive ratio
reaches. The lengths of the two numbers give it or the one above it. -/
def ratioLog2 (numerator denominator : Nat) : Int :=
  let guess : Int := (numerator.log2 : Int) - denominator.log2
  if denominator * twoTo guess.toNat ≤ numerator * twoTo (-guess).toNat then guess
  else guess - 1

/-- The bits of positive infinity, which lie one past those of the largest
float. -/
def infinityBits : Nat := 2047 * twoTo 52

/-- The bits of the float nearest to a ratio. Its last place is 52 places
below its first, but never below the last place of the smallest float. A
significand that rounds up to the next power of two carries into the exponent
by itself. -/
def bitsOfRatio (numerator denominator : Nat) : Nat :=
  if numerator = 0 then 0
  else
    let place := max (ratioLog2 numerator denominator - 52) (-1074)
    let significand :=
      roundRatio (numerator * twoTo (-place).toNat) (denominator * twoTo place.toNat)
    min ((place + 1074).toNat * twoTo 52 + significand) infinityBits

/-- The float nearest to a ratio, a tie to the even significand. -/
def ofRatio (numerator denominator : Nat) : Float :=
  Float.ofBits (UInt64.ofNat (bitsOfRatio numerator denominator))

/-- The float nearest to a natural number, a tie to the even significand. -/
def ofNat (value : Nat) : Float := ofRatio value 1

-- ================================================================== powers

/-- `base` to the given power, times `result`, by repeated squaring. -/
def powerLoop (result base : Float) (exponent : Nat) : Float :=
  let result := if exponent % 2 = 1 then result * base else result
  if exponent / 2 = 0 then result
  else powerLoop result (base * base) (exponent / 2)
decreasing_by omega

/-- Ten to an integer power; a negative power is the reciprocal. -/
def powerOfTen (exponent : Int) : Float :=
  let magnitude := powerLoop (ofNat 1) (ofNat 10) exponent.natAbs
  if exponent < 0 then ofNat 1 / magnitude else magnitude

-- ==================================================================== parts

/-- A finite float as a sign and `significand · 2 ^ exponent`. -/
structure Parts where
  negative : Bool
  significand : Nat
  exponent : Int
deriving DecidableEq, Repr

/-- The parts of a float; `none` for infinities and values that are no
number. -/
def parts? (value : Float) : Option Parts :=
  let bits := value.toBits.toNat
  let negative := bits / twoTo 63 = 1
  let biased : Nat := bits / twoTo 52 % 2048
  let fraction := bits % twoTo 52
  if biased = 2047 then none
  else if biased = 0 then some ⟨negative, fraction, -1074⟩
  else some ⟨negative, twoTo 52 + fraction, (biased : Int) - 1075⟩

end MarketReplay.Binary64
