/-
Byte strings in lower-case hexadecimal, two digits a byte. `decode?` accepts
digits of either case and refuses anything that is no whole number of bytes.
-/

namespace MarketReplay.Hex

/-- The digit of a value below sixteen. -/
def digit (value : Nat) : Char :=
  if value < 10 then Char.ofNat (48 + value) else Char.ofNat (87 + value)

/-- The value of a digit of either case. -/
def value? (c : Char) : Option Nat :=
  if '0' ≤ c ∧ c ≤ '9' then some (c.toNat - 48)
  else if 'a' ≤ c ∧ c ≤ 'f' then some (c.toNat - 87)
  else if 'A' ≤ c ∧ c ≤ 'F' then some (c.toNat - 55)
  else none

/-- The two digits of one byte. -/
def ofByte (byte : UInt8) : List Char :=
  [digit (byte.toNat / 16), digit (byte.toNat % 16)]

/-- A byte string as hexadecimal text. -/
def encode (bytes : List UInt8) : String :=
  String.ofList (bytes.flatMap ofByte)

/-- The bytes that pairs of digits spell. -/
def decodePairs? : List Char → Option (List UInt8)
  | [] => some []
  | [_] => none
  | high :: low :: rest => do
      let h ← value? high
      let l ← value? low
      let bytes ← decodePairs? rest
      return UInt8.ofNat (16 * h + l) :: bytes

/-- The bytes that a hexadecimal text spells. -/
def decode? (text : String) : Option (List UInt8) :=
  decodePairs? text.toList

end MarketReplay.Hex
