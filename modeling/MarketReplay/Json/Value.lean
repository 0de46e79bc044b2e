/-
JSON documents as values.

A number keeps its spelling, because which spellings are good depends on who
reads it: a whole number may carry no fraction and no exponent, while a float
takes any. A string literal may spell half a surrogate pair; such a literal is
well formed but spells no text.
-/
import MarketReplay.Number.Shortest

namespace MarketReplay.Json

/-- A number as it is spelled. -/
structure Numeral where
  negative : Bool
  /-- The digits before the point. -/
  whole : List Char
  /-- The digits after the point, if there is one. -/
  fraction : List Char
  /-- The sign and the digits of the exponent. -/
  exponent : Option (Bool × List Char)
deriving DecidableEq, Repr

/-- A JSON value. -/
inductive Value
  | null
  | bool (value : Bool)
  | number (numeral : Numeral)
  /-- A string; `none` spells half a surrogate pair. -/
  | text (content : Option String)
  | array (items : List Value)
  /-- Members in their order, which may repeat a name. -/
  | object (members : List (Option String × Value))

-- ============================================================ whole numbers

namespace Numeral

/-- The digits of a natural number. -/
def digits (value : Nat) : List Char := Nat.toDigits 10 value

/-- The number that some digits spell. -/
def ofDigits (chars : List Char) : Nat :=
  chars.foldl (fun value c => 10 * value + (c.toNat - 48)) 0

/-- An integer as it is spelled. -/
def ofInt (value : Int) : Numeral :=
  ⟨value < 0, digits value.natAbs, [], none⟩

/-- Is the spelling one of a whole number, without fraction and exponent? -/
def isWhole (numeral : Numeral) : Bool :=
  numeral.fraction.isEmpty && numeral.exponent.isNone

/-- The natural number that is spelled; a sign is not allowed. -/
def natural? (numeral : Numeral) : Option Nat :=
  if numeral.isWhole && !numeral.negative then some (ofDigits numeral.whole) else none

/-- The integer that is spelled; zero has no sign. -/
def integer? (numeral : Numeral) : Option Int :=
  let size := ofDigits numeral.whole
  if !numeral.isWhole then none
  else if !numeral.negative then some size
  else if size = 0 then none
  else some (-(size : Int))

-- ================================================================== floats

/-- A decimal as it is spelled: with a point where the value has between five
zeros after the point and sixteen places before it, with an exponent
elsewhere, and always either with a fraction or with an exponent. -/
def ofDecimal (negative : Bool) (decimal : Shortest.Decimal) : Numeral :=
  let ds := digits decimal.coefficient
  let point : Int := ds.length + decimal.exponent
  if 0 ≤ decimal.exponent ∧ point ≤ 16 then
    ⟨negative, ds ++ List.replicate decimal.exponent.toNat '0', ['0'], none⟩
  else if 0 < point ∧ point ≤ 16 then
    ⟨negative, ds.take point.toNat, ds.drop point.toNat, none⟩
  else if -5 < point ∧ point ≤ 0 then
    ⟨negative, ['0'], List.replicate (-point).toNat '0' ++ ds, none⟩
  else
    ⟨negative, ds.take 1, ds.drop 1, some (point < 1, digits (point - 1).natAbs)⟩

/-- The shortest spelling of a finite float. -/
def ofParts (parts : Binary64.Parts) : Numeral :=
  if parts.significand = 0 then ⟨parts.negative, ['0'], ['0'], none⟩
  else ofDecimal parts.negative (Shortest.decimal parts)

end Numeral

-- ================================================================ builders

namespace Value

/-- A text. -/
def string (text : String) : Value := .text (some text)

/-- An integer in digits. -/
def int (value : Int) : Value := .number (.ofInt value)

/-- A natural number in digits. -/
def nat (value : Nat) : Value := .int value

/-- A float in its shortest spelling; infinities and values that are no number
have none. -/
def float (value : Float) : Value :=
  match Binary64.parts? value with
  | some parts => .number (.ofParts parts)
  | none => .null

/-- An object with the given members. -/
def record (members : List (String × Value)) : Value :=
  .object (members.map fun (name, value) => (some name, value))

/-- A value that may be absent. -/
def optional {α : Type} (write : α → Value) : Option α → Value
  | some value => write value
  | none => .null

/-- An array of values of one shape. -/
def list {α : Type} (write : α → Value) (items : List α) : Value :=
  .array (items.map write)

end Value

end MarketReplay.Json
