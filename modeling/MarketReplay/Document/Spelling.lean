/-
How documents spell the numbers that readers may not hold exactly: integers of
64 bits and more, and floats. Everything else that is written is the same in
every spelling.
-/
import MarketReplay.Json.Shape

namespace MarketReplay

/-- How wide integers and floats are written. -/
structure Spelling where
  integer : Int → Json.Value
  float : Float → Json.Value

namespace Spelling

/-- Integers in digits, floats in their shortest spelling. -/
def plain : Spelling := ⟨Json.Value.int, Json.Value.float⟩

variable (spelling : Spelling)

/-- A wide natural number. -/
def natural (value : Nat) : Json.Value := spelling.integer value

end Spelling

end MarketReplay
