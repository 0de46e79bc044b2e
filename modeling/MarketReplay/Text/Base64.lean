/-
Base64 text over the standard alphabet: three bytes become four characters.

What base64 leaves to its users is settled here the strict way:

- Padding. A last group of one or two bytes is filled up with `=`, and reading
  requires just that: a text without its filling, with more of it, or with a
  `=` anywhere else is refused.
- Trailing bits. The bits of the last character that the filling stands for
  are zero, and a text in which one of them is not is refused too.
- Alphabet. The last two symbols are `+` and `/`. The symbols of the variant
  for addresses and file names are refused, as are spaces and line breaks.

So every byte string has one text, and no two texts spell the same bytes.
-/

namespace MarketReplay.Base64

-- ============================================================ the alphabet

/-- The character of a six-bit value: `A`–`Z`, `a`–`z`, `0`–`9`, `+`, `/`. -/
def symbol (value : Nat) : Char :=
  if value < 26 then Char.ofNat (65 + value)
  else if value < 52 then Char.ofNat (71 + value)
  else if value < 62 then Char.ofNat (value - 4)
  else if value = 62 then '+'
  else '/'

/-- The six-bit value of a character of the alphabet. -/
def value? (c : Char) : Option Nat :=
  if 'A' ≤ c ∧ c ≤ 'Z' then some (c.toNat - 65)
  else if 'a' ≤ c ∧ c ≤ 'z' then some (c.toNat - 71)
  else if '0' ≤ c ∧ c ≤ '9' then some (c.toNat + 4)
  else if c = '+' then some 62
  else if c = '/' then some 63
  else none

-- ================================================================= writing

/-- The characters of a byte string, group by group. -/
def encodeChars : List UInt8 → List Char
  | [] => []
  | [a] =>
      [symbol (a.toNat / 4), symbol (a.toNat % 4 * 16), '=', '=']
  | [a, b] =>
      [symbol (a.toNat / 4), symbol (a.toNat % 4 * 16 + b.toNat / 16),
        symbol (b.toNat % 16 * 4), '=']
  | a :: b :: c :: rest =>
      symbol (a.toNat / 4) :: symbol (a.toNat % 4 * 16 + b.toNat / 16) ::
        symbol (b.toNat % 16 * 4 + c.toNat / 64) :: symbol (c.toNat % 64) ::
        encodeChars rest

/-- A byte string as base64 text. -/
def encode (bytes : List UInt8) : String :=
  String.ofList (encodeChars bytes)

-- ================================================================= reading

/-- The bytes that a list of characters spells, in canonical form only. -/
def decodeChars? : List Char → Option (List UInt8)
  | [] => some []
  | [a, b, '=', '='] => do
      let x ← value? a
      let y ← value? b
      if y % 16 = 0 then some [UInt8.ofNat (x * 4 + y / 16)] else none
  | [a, b, c, '='] => do
      let x ← value? a
      let y ← value? b
      let z ← value? c
      if z % 4 = 0 then
        some [UInt8.ofNat (x * 4 + y / 16), UInt8.ofNat (y % 16 * 16 + z / 4)]
      else none
  | a :: b :: c :: d :: rest => do
      let x ← value? a
      let y ← value? b
      let z ← value? c
      let w ← value? d
      let bytes ← decodeChars? rest
      return UInt8.ofNat (x * 4 + y / 16) :: UInt8.ofNat (y % 16 * 16 + z / 4) ::
        UInt8.ofNat (z % 4 * 64 + w) :: bytes
  | _ => none

/-- The bytes that a base64 text spells; `none` unless it is canonical. -/
def decode? (text : String) : Option (List UInt8) :=
  decodeChars? text.toList

end MarketReplay.Base64
