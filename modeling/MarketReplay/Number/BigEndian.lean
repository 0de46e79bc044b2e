/-
Unsigned numbers as byte strings, most significant byte first.

`toNat` reads a byte string of any width; `ofNat` writes the shortest byte
string that reads back, so zero is the empty string and no written number
starts with a zero byte. Leading zero bytes never change what is read, and
`significant` drops them, which is how a reader measures the width a number
really needs.
-/

namespace MarketReplay.BigEndian

-- ======================================================= reading a number

/-- The value of a byte string, the first byte weighing most. -/
def toNat (bytes : List UInt8) : Nat :=
  bytes.foldl (fun value byte => 256 * value + byte.toNat) 0

/-- A byte string from its first byte that is not zero on. -/
def significant (bytes : List UInt8) : List UInt8 :=
  bytes.dropWhile (· == 0)

-- ======================================================= writing a number

/-- The shortest byte string with the given value. -/
def ofNat (value : Nat) : List UInt8 :=
  if value = 0 then []
  else ofNat (value / 256) ++ [UInt8.ofNat (value % 256)]
decreasing_by omega

-- ================================================================= lemmas

@[simp] theorem toNat_nil : toNat [] = 0 := rfl

@[simp] theorem toNat_append_singleton (bytes : List UInt8) (byte : UInt8) :
    toNat (bytes ++ [byte]) = 256 * toNat bytes + byte.toNat := by
  simp [toNat]

@[simp] theorem ofNat_zero : ofNat 0 = [] := by
  rw [ofNat]
  simp

theorem ofNat_of_ne_zero {value : Nat} (h : value ≠ 0) :
    ofNat value = ofNat (value / 256) ++ [UInt8.ofNat (value % 256)] := by
  rw [ofNat]
  simp [h]

/-- A written number reads back as itself. -/
@[simp] theorem toNat_ofNat (value : Nat) : toNat (ofNat value) = value := by
  induction value using Nat.strongRecOn with
  | _ value ih =>
    by_cases h : value = 0
    · simp [h]
    · have hlt : value / 256 < value := by omega
      rw [ofNat_of_ne_zero h, toNat_append_singleton, ih _ hlt]
      have : (UInt8.ofNat (value % 256)).toNat = value % 256 := by
        rw [UInt8.toNat_ofNat']
        omega
      omega

end MarketReplay.BigEndian
