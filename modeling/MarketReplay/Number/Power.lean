/-
The powers that widths and decimal places stand for.
-/

namespace MarketReplay

/-- Two to a power: how many values that many bits have. -/
def twoTo (exponent : Nat) : Nat := Nat.pow 2 exponent

/-- Ten to a power: how many values that many decimal digits have. -/
def tenTo (exponent : Nat) : Nat := Nat.pow 10 exponent

end MarketReplay
