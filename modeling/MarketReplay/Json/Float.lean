/-
The float that a JSON number spells.

It is the float nearest to the number, a tie to the even significand, however
many digits the number has. A number that rounds past the largest float is
refused; one that rounds to nothing is zero and keeps its sign. The digits are
read as one natural number with a power of ten beside it, and the place of the
first digit that counts decides the far ends, so that no huge power is formed
for an exponent that no float reaches.
-/
import MarketReplay.Json.Value
import MarketReplay.Number.Power

namespace MarketReplay.Json

namespace Numeral

/-- The power of ten that the exponent spells. -/
def shift (numeral : Numeral) : Int :=
  match numeral.exponent with
  | some (true, digits) => -(ofDigits digits : Int)
  | some (false, digits) => ofDigits digits
  | none => 0

/-- The bits of the float nearest to `coefficient · 10 ^ place`. -/
def decimalBits (coefficient : Nat) (place : Int) : Nat :=
  Binary64.bitsOfRatio (coefficient * tenTo place.toNat) (tenTo (-place).toNat)

/-- The bits of the float nearest to a number without its sign. A number below
`10 ^ (-330)` rounds to zero, and one from `10 ^ 310` on to infinity. -/
def sizeBits (numeral : Numeral) : Nat :=
  let counted := (numeral.whole ++ numeral.fraction).dropWhile (· == '0')
  let place := numeral.shift - numeral.fraction.length
  let top := place + counted.length
  if counted.isEmpty ∨ top < -329 then 0
  else if 310 < top then Binary64.infinityBits
  else decimalBits (ofDigits counted) place

/-- The float nearest to a number; `none` past the largest float. -/
def float? (numeral : Numeral) : Option Float :=
  let size := numeral.sizeBits
  let float := Float.ofBits (UInt64.ofNat size)
  if size = Binary64.infinityBits then none
  else if numeral.negative then some (-float)
  else some float

end Numeral

end MarketReplay.Json
