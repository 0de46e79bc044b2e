/-
The topics of a log: its arguments, each a base64 text.

Numbers are big-endian and unsigned, with the empty topic as zero; addresses
are public keys; everything else is UTF-8. Topics are read by position. A
required reader fails on a topic that is absent, an `orZero` reader takes it
for zero, and an `optional` reader takes an absent and an empty topic alike
for nothing. Below the readers stand the writers, which build what the readers
read back.
-/
import MarketReplay.Address
import MarketReplay.Number.BigEndian
import MarketReplay.Number.Power
import MarketReplay.Text.Base64
import MarketReplay.Text.Utf8

namespace MarketReplay

/-- Why a topic could not be read, and at which position. -/
inductive TopicError
  | missing (index : Nat)
  | base64 (index : Nat)
  /-- The number needs `length` bytes, where `width` are allowed. -/
  | tooWide (index length width : Nat)
  | utf8 (index : Nat)
  | address (index : Nat) (fault : Address.Fault)
deriving DecidableEq, Repr

/-- What is said of an unreadable topic. -/
def TopicError.message : TopicError → String
  | .missing index => s!"Missing required topic at index {index}"
  | .base64 index => s!"Topic {index} is not valid base64"
  | .tooWide index length width =>
      s!"Topic {index} is {length} bytes, wider than the {width}-byte target"
  | .utf8 index => s!"Topic {index} is not valid UTF-8"
  | .address index fault => s!"Topic {index} is not a valid address: {fault.message}"

/-- The topics of one log, in their stored form. -/
structure Topics where
  texts : List String
deriving DecidableEq, Repr

namespace Topics

/-- The result of reading a topic. -/
abbrev Read (α : Type) := Except TopicError α

/-- The largest timestamp; later ones are read as this. -/
def lastTimestamp : Nat := twoTo 63 - 1

variable (topics : Topics) (index : Nat)

-- =================================================================== bytes

/-- The bytes of a topic, if it is present. -/
def raw : Read (Option (List UInt8)) :=
  match topics.texts[index]? with
  | none => .ok none
  | some text =>
      match Base64.decode? text with
      | some bytes => .ok (some bytes)
      | none => .error (.base64 index)

/-- The bytes of a topic that must be present. -/
def bytes : Read (List UInt8) := do
  match ← topics.raw index with
  | some bytes => return bytes
  | none => throw (.missing index)

/-- The bytes of a topic that is present and not empty. -/
def content : Read (Option (List UInt8)) := do
  match ← topics.raw index with
  | some (byte :: rest) => return some (byte :: rest)
  | _ => return none

-- ================================================================= numbers

/-- The number in some bytes, unless it needs more than `width` of them. -/
def number (width : Nat) (bytes : List UInt8) : Read Nat :=
  let length := (BigEndian.significant bytes).length
  if width < length then .error (.tooWide index length width)
  else .ok (BigEndian.toNat bytes)

/-- A required number of at most `width` bytes. -/
def sized (width : Nat) : Read Nat := do
  number index width (← topics.bytes index)

/-- A number of at most `width` bytes, zero if the topic is absent. -/
def sizedOrZero (width : Nat) : Read Nat := do
  match ← topics.raw index with
  | some bytes => number index width bytes
  | none => return 0

/-- A required number below `2 ^ 64`. -/
def word : Read Nat := topics.sized index 8

/-- A required number below `2 ^ 128`. -/
def amount : Read Nat := topics.sized index 16

/-- A number below `2 ^ 64`, zero if the topic is absent. -/
def wordOrZero : Read Nat := topics.sizedOrZero index 8

/-- A number below `2 ^ 128`, zero if the topic is absent. -/
def amountOrZero : Read Nat := topics.sizedOrZero index 16

/-- A number below `2 ^ 128`, nothing if the topic is absent or empty. -/
def amountOptional : Read (Option Nat) := do
  match ← topics.content index with
  | some _ => return some (← topics.amount index)
  | none => return none

/-- A timestamp, zero if the topic is absent; times past the last one a signed
word holds are read as that one. -/
def timestampOrZero : Read Int := do
  return (min (← topics.wordOrZero index) lastTimestamp : Nat)

/-- A timestamp, nothing if the topic is absent or zero. -/
def timestampOptional : Read (Option Int) := do
  match ← topics.wordOrZero index with
  | 0 => return none
  | _ => return some (← topics.timestampOrZero index)

-- ====================================================== text and addresses

/-- The text in some bytes. -/
def decodeText (bytes : List UInt8) : Read String :=
  match Utf8.decode? bytes with
  | some text => .ok text
  | none => .error (.utf8 index)

/-- A required text. -/
def text : Read String := do
  decodeText index (← topics.bytes index)

/-- A text, nothing if the topic is absent or empty. -/
def textOptional : Read (Option String) := do
  match ← topics.content index with
  | some bytes => return some (← decodeText index bytes)
  | none => return none

/-- The address of the key in some bytes. -/
def decodeAddress (bytes : List UInt8) : Read String :=
  match Address.ofKey bytes with
  | .ok address => .ok address
  | .error fault => .error (.address index fault)

/-- A required address. -/
def address : Read String := do
  decodeAddress index (← topics.bytes index)

/-- An address, nothing if the topic is absent or empty. -/
def addressOptional : Read (Option String) := do
  match ← topics.content index with
  | some bytes => return some (← decodeAddress index bytes)
  | none => return none

end Topics

-- ================================================================= writing

namespace Topic

/-- The topic that holds some bytes. -/
def ofBytes (bytes : List UInt8) : String := Base64.encode bytes

/-- The topic of a number, in as few bytes as it needs; zero is empty. -/
def ofNat (value : Nat) : String := ofBytes (BigEndian.ofNat value)

/-- The topic of a text. -/
def ofText (text : String) : String := ofBytes (Utf8.encode text)

/-- The topic of an address. -/
def ofAddress (address : String) : Except Address.Fault String :=
  (Address.toKey address).map ofBytes

end Topic

end MarketReplay
