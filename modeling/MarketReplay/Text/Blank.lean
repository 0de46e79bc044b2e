/-
The characters with the property White_Space, and the trimming of a text at
both ends. Core's own whitespace test knows ASCII only; tags typed on a
command line may carry any of these.
-/

namespace MarketReplay.Blank

/-- The ranges of code points with the property White_Space, in order. -/
def ranges : List (Nat × Nat) :=
  [(0x09, 0x0D), (0x20, 0x20), (0x85, 0x85), (0xA0, 0xA0), (0x1680, 0x1680),
    (0x2000, 0x200A), (0x2028, 0x2029), (0x202F, 0x202F), (0x205F, 0x205F),
    (0x3000, 0x3000)]

/-- Does the character have the property White_Space? -/
def isBlank (c : Char) : Bool :=
  ranges.any fun (first, last) => first ≤ c.toNat && c.toNat ≤ last

/-- A text without the blanks at either end. -/
def trim (text : String) : String :=
  let tail := text.toList.dropWhile isBlank
  String.ofList (tail.reverse.dropWhile isBlank).reverse

end MarketReplay.Blank
