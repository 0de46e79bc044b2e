/-
Account addresses: a public key of 32 bytes in bech32 under the part `erd`.
-/
import MarketReplay.Text.Bech32

namespace MarketReplay.Address

/-- The human-readable part of every account address. -/
def hrp : String := "erd"

/-- The length of a public key in bytes. -/
def keyLength : Nat := 32

/-- Why a text is no address, or a byte string no public key. -/
inductive Fault
  /-- The text is not bech32. -/
  | malformed
  /-- The text is bech32 under another human-readable part. -/
  | foreign (hrp : String)
  /-- The key has the wrong number of bytes. -/
  | length (bytes : Nat)
deriving DecidableEq, Repr

/-- What is said of a fault. -/
def Fault.message : Fault → String
  | .malformed => "malformed bech32 text"
  | .foreign hrp => s!"unexpected prefix '{hrp}'"
  | .length bytes => s!"expected {keyLength} bytes, got {bytes}"

/-- The address of a public key. -/
def ofKey (key : List UInt8) : Except Fault String :=
  if key.length = keyLength then .ok (Bech32.encode hrp key)
  else .error (.length key.length)

/-- The public key of an address. -/
def toKey (address : String) : Except Fault (List UInt8) :=
  match Bech32.decode? address with
  | none => .error .malformed
  | some (found, key) =>
      if found ≠ hrp then .error (.foreign found)
      else if key.length ≠ keyLength then .error (.length key.length)
      else .ok key

end MarketReplay.Address
