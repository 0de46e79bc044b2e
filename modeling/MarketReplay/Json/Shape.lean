/-
Reading JSON values of a fixed shape.

A reader answers the value it expects or nothing. A record may be given as an
object, whose known members stand in any order and at most once and whose
other members are not looked at, or as an array of its fields in their order.
Fields with a default may be left out; in an array only at its end. A field
that may be absent is read as absent when it is left out of an object, or when
it is null.
-/
import MarketReplay.Json.Float
import MarketReplay.Number.Power

namespace MarketReplay.Json

/-- A reader of one shape. -/
abbrev Shape (α : Type) := Value → Option α

namespace Shape

-- ================================================================= scalars

/-- A text. -/
def string : Shape String
  | .text content => content
  | _ => none

/-- A truth value. -/
def bool : Shape Bool
  | .bool value => some value
  | _ => none

/-- A natural number below `2 ^ width`. -/
def natural (width : Nat) : Shape Nat
  | .number numeral => numeral.natural?.filter (· < twoTo width)
  | _ => none

/-- A natural number of 64 bits. -/
def word : Shape Nat := natural 64

/-- A natural number of 128 bits. -/
def amount : Shape Nat := natural 128

/-- An integer of 64 bits with a sign. -/
def integer : Shape Int
  | .number numeral =>
      numeral.integer?.filter fun value => -(twoTo 63 : Int) ≤ value && value < twoTo 63
  | _ => none

/-- A float. -/
def float : Shape Float
  | .number numeral => numeral.float?
  | _ => none

-- ============================================================ combinations

variable {α : Type}

/-- A value that may be null. -/
def optional (shape : Shape α) : Shape (Option α)
  | .null => some none
  | value => (shape value).map some

/-- An array of values of one shape. -/
def list (shape : Shape α) : Shape (List α)
  | .array items => items.mapM shape
  | _ => none

/-- An object whose members all have one shape; of equal names the last
counts. -/
def dictionary (shape : Shape α) : Shape (List (String × α))
  | .object members =>
      members.mapM fun (name, value) => do return (← name, ← shape value)
  | _ => none

/-- One of some named alternatives, given by its name, or by its name with
null beside it. -/
def oneOf (alternatives : List α) (name : α → String) : Shape α
  | .text content => do
      let found ← content
      alternatives.find? (name · == found)
  | .object [(content, .null)] => do
      let found ← content
      alternatives.find? (name · == found)
  | _ => none

-- ================================================================= records

/-- The fields of a record as they are given. -/
structure Fields where
  cells : List (String × Option Value)
  /-- Are the fields given by their order? -/
  positional : Bool

/-- The fields of a record with the given names. -/
def fields (names : List String) : Shape Fields
  | .object members => do
      let members ← members.mapM fun (name, value) => do return (← name, value)
      let given (name : String) := (members.filter (·.1 == name)).map (·.2)
      guard (names.all fun name => (given name).length ≤ 1)
      return ⟨names.map fun name => (name, (given name).head?), false⟩
  | .array items => do
      guard (items.length ≤ names.length)
      return ⟨names.zipIdx.map fun (name, i) => (name, items[i]?), true⟩
  | _ => none

namespace Fields

variable (fields : Fields) (name : String)

/-- The value given for a field. -/
def cell : Option Value := (fields.cells.lookup name).join

/-- A field that must be given. -/
def required (shape : Shape α) : Option α := fields.cell name >>= shape

/-- A field that may be left out, for which another value then stands. -/
def defaulted (default : α) (shape : Shape α) : Option α :=
  match fields.cell name with
  | some value => shape value
  | none => some default

/-- A field that may be null, or left out of an object. -/
def nullable (shape : Shape α) : Option (Option α) :=
  match fields.cell name with
  | some value => shape.optional value
  | none => if fields.positional then none else some none

end Fields

end Shape

end MarketReplay.Json
