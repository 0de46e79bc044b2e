/-
Bech32 text: a human-readable part, the separator `1`, and data in symbols of
five bits, the last six of which are a checksum over everything before them.

What readers of such texts may differ in is settled like this:

- Checksum. There are two, which differ in one constant: bech32 and the newer
  bech32m. Reading accepts either, and writing uses bech32.
- Length. A text of more than 1023 characters is refused, and one of 90 or
  more is not: the limit is the length that the checksum is made for, and not
  the smaller one of some uses. Writing has no limit of its own, because
  account addresses are all that is written, and these have one length.
- Human-readable part. It is what stands before the last `1`: between one and
  83 printable characters. It is answered in the case it is written in.
- Case. A text is one case throughout, and the checksum is that of its
  lower-case form. Writing leaves the human-readable part as it is given.
- Trailing bits. Writing fills the last symbol up with zero bits. Reading drops
  the bits left over below a whole byte, whatever they are and however many;
  so texts that differ in these, and in their checksums, spell the same bytes.
-/
import MarketReplay.Pieces

namespace MarketReplay.Bech32

-- ============================================================ the alphabet

/-- The symbols in the order of their values. -/
def alphabet : List Char := "qpzry9x8gf2tvdw0s3jn54khce6mua7l".toList

/-- The symbol of a five-bit value. -/
def symbol (value : Nat) : Char := alphabet.getD value 'q'

/-- The value of a symbol of either case. -/
def value? (c : Char) : Option Nat := alphabet.findIdx? (· == c.toLower)

-- ============================================================== regrouping

/-- The bits of a number of the given width, the heaviest first. -/
def bits (width value : Nat) : List Bool :=
  (List.range width).reverse.map value.testBit

/-- The number that a list of bits spells, the heaviest first. -/
def ofBits (bits : List Bool) : Nat :=
  bits.foldl (fun value bit => 2 * value + bit.toNat) 0

/-- Bytes as five-bit values, the last filled up with zero bits. -/
def toSymbols (bytes : List UInt8) : List Nat :=
  (pieces 5 (bytes.flatMap fun byte => bits 8 byte.toNat)).map fun piece =>
    ofBits (piece ++ List.replicate (5 - piece.length) false)

/-- The whole bytes that five-bit values spell. -/
def toBytes (values : List Nat) : List UInt8 :=
  ((pieces 8 (values.flatMap (bits 5))).filter (·.length == 8)).map fun piece =>
    UInt8.ofNat (ofBits piece)

-- ============================================================ the checksum

/-- The constant of the older checksum, which writing uses. -/
def constant : UInt32 := 1

/-- The constant of the newer checksum. -/
def constantM : UInt32 := 0x2bc830a3

/-- The generator's terms, one for each bit that leaves the register. -/
def generator : List UInt32 :=
  [0x3b6a57b2, 0x26508e6d, 0x1ea119fa, 0x3d4233dd, 0x2a1462b3]

/-- One value shifted into the register. -/
def step (register : UInt32) (value : Nat) : UInt32 :=
  let top := register >>> 25
  let shifted := ((register &&& 0x1ffffff) <<< 5) ^^^ UInt32.ofNat value
  (generator.zipIdx).foldl
    (fun state (term, i) => if top.toNat.testBit i then state ^^^ term else state) shifted

/-- The human-readable part as values: the high bits of its characters, a
zero, and their low bits. -/
def expand (hrp : List Char) : List Nat :=
  hrp.map (fun c => c.toLower.toNat / 32) ++ 0 :: hrp.map (fun c => c.toLower.toNat % 32)

/-- The six values that close a text with the given constant. -/
def checksum (final : UInt32) (hrp : List Char) (values : List Nat) : List Nat :=
  let register := (expand hrp ++ values ++ List.replicate 6 0).foldl step 1 ^^^ final
  [25, 20, 15, 10, 5, 0].map fun shift => (register.toNat >>> shift) % 32

-- ========================================================= writing, reading

/-- Bytes under a human-readable part. -/
def encode (hrp : String) (bytes : List UInt8) : String :=
  let values := toSymbols bytes
  let closing := checksum constant hrp.toList values
  hrp ++ "1" ++ String.ofList ((values ++ closing).map symbol)

/-- Is this a human-readable part? One to 83 printable characters. -/
def isHrp (hrp : List Char) : Bool :=
  1 ≤ hrp.length && hrp.length ≤ 83 && hrp.all fun c => 33 ≤ c.toNat && c.toNat ≤ 126

/-- The human-readable part of a text, in the case it is written in, and the
bytes that follow it. -/
def decode? (text : String) : Option (String × List UInt8) := do
  let chars := text.toList
  guard (chars.length ≤ 1023)
  guard !(chars.any Char.isUpper && chars.any Char.isLower)
  let back := chars.reverse
  let symbols := (back.takeWhile (· != '1')).reverse
  let hrp := ((back.dropWhile (· != '1')).drop 1).reverse
  guard (isHrp hrp)
  let values ← symbols.mapM value?
  guard (6 ≤ values.length)
  let payload := values.take (values.length - 6)
  let closing := values.drop (values.length - 6)
  guard (closing == checksum constant hrp payload || closing == checksum constantM hrp payload)
  return (String.ofList hrp, toBytes payload)

end MarketReplay.Bech32
