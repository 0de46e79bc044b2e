/-
How wide a number is, and what a register of 128 bits holds of it.

The significant bytes of a byte string are the shortest byte string of its
value (`ofNat_toNat`). So they are the end of every byte string of that value,
and how many they are says how large the value is
(`length_significant_le_iff`): a reader that measures bytes decides about the
number itself.

A register takes bytes in one by one, shifting what it holds, and what is
shifted out is lost. It holds the value modulo its size (`toNat_register`),
which is the value as long as the significant bytes fit.
-/
import MarketReplay.Proofs.Number.BigEndian
import Mathlib.Data.List.Induction

namespace MarketReplay.BigEndian

-- ==================================================== the shortest byte string

theorem significant_append_singleton (bytes : List UInt8) (byte : UInt8) :
    significant (bytes ++ [byte])
      = if significant bytes = [] then significant [byte]
        else significant bytes ++ [byte] := by
  unfold significant
  rw [List.dropWhile_append]
  simp only [List.isEmpty_iff]

theorem ofNat_toNat_byte (byte : UInt8) : ofNat byte.toNat = significant [byte] := by
  by_cases hbyte : byte = 0
  · subst hbyte
    exact ofNat_zero
  · have hpositive : byte.toNat ≠ 0 := fun hzero => hbyte (UInt8.toNat_inj.1 hzero)
    have hsmall : byte.toNat / 256 = 0 := Nat.div_eq_of_lt byte.toNat_lt
    have hmod : byte.toNat % 256 = byte.toNat := Nat.mod_eq_of_lt byte.toNat_lt
    rw [ofNat_of_ne_zero hpositive, hsmall, hmod, ofNat_zero, UInt8.ofNat_toNat,
      significant_eq_self (by simpa using hbyte)]
    rfl

/-- The shortest byte string of a value is what is significant in any. -/
theorem ofNat_toNat (bytes : List UInt8) :
    ofNat (toNat bytes) = significant bytes := by
  induction bytes using List.reverseRecOn with
  | nil => exact ofNat_zero
  | append_singleton bytes byte ih =>
      rw [toNat_append_singleton, significant_append_singleton, ← ih]
      have hbyte := byte.toNat_lt
      by_cases hvalue : toNat bytes = 0
      · rw [hvalue, ofNat_zero, if_pos rfl, Nat.mul_zero, Nat.zero_add, ofNat_toNat_byte]
      · have hpositive : 256 * toNat bytes + byte.toNat ≠ 0 := by omega
        have hdiv : (256 * toNat bytes + byte.toNat) / 256 = toNat bytes := by omega
        have hmod : (256 * toNat bytes + byte.toNat) % 256 = byte.toNat := by omega
        rw [ofNat_of_ne_zero hpositive, hdiv, hmod, UInt8.ofNat_toNat,
          if_neg (mt ofNat_eq_nil_iff.1 hvalue)]

@[simp] theorem toNat_significant (bytes : List UInt8) :
    toNat (significant bytes) = toNat bytes := by
  rw [← ofNat_toNat, toNat_ofNat]

/-- Every byte string of a value ends in the shortest one. -/
theorem ofNat_suffix {bytes : List UInt8} {value : Nat} (h : toNat bytes = value) :
    ofNat value <:+ bytes := by
  rw [← h, ofNat_toNat]
  exact List.dropWhile_suffix _

/-- Every other byte string of a value is longer than the shortest one. -/
theorem length_ofNat_lt {bytes : List UInt8} {value : Nat} (h : toNat bytes = value)
    (hother : bytes ≠ ofNat value) : (ofNat value).length < bytes.length := by
  have hsuffix := ofNat_suffix h
  refine Nat.lt_of_le_of_ne hsuffix.length_le fun hlength => ?_
  exact hother (hsuffix.eq_of_length hlength).symm

@[simp] theorem significant_zeros (zeros : Nat) (bytes : List UInt8) :
    significant (List.replicate zeros 0 ++ bytes) = significant bytes := by
  unfold significant
  rw [List.dropWhile_append_of_pos]
  intro byte hbyte
  exact beq_iff_eq.2 (List.eq_of_mem_replicate hbyte)

@[simp] theorem toNat_zeros (zeros : Nat) (bytes : List UInt8) :
    toNat (List.replicate zeros 0 ++ bytes) = toNat bytes := by
  rw [← toNat_significant, significant_zeros, toNat_significant]

-- ====================================================================== width

theorem toNat_lt_twoTo (bytes : List UInt8) : toNat bytes < twoTo (8 * bytes.length) := by
  induction bytes using List.reverseRecOn with
  | nil => exact Nat.zero_lt_one
  | append_singleton bytes byte ih =>
      have hbyte := byte.toNat_lt
      rw [toNat_append_singleton, List.length_append, List.length_singleton,
        twoTo_succ_byte]
      omega

/-- The significant bytes are as many as the value asks for. -/
theorem length_significant_le_iff {bytes : List UInt8} {width : Nat} :
    (significant bytes).length ≤ width ↔ toNat bytes < twoTo (8 * width) := by
  constructor
  · intro hlength
    rw [← toNat_significant]
    refine Nat.lt_of_lt_of_le (toNat_lt_twoTo _) ?_
    exact Nat.pow_le_pow_right Nat.two_pos (Nat.mul_le_mul_left 8 hlength)
  · intro hvalue
    rw [← ofNat_toNat]
    exact length_ofNat_le hvalue

-- ================================================================ a register

/-- What a register of 128 bits holds after some bytes have been shifted into
it, one by one. -/
def register (bytes : List UInt8) : BitVec 128 :=
  bytes.foldl (fun value byte => value <<< 8 ||| byte.toBitVec.setWidth 128) 0

theorem register_append_singleton (bytes : List UInt8) (byte : UInt8) :
    register (bytes ++ [byte])
      = register bytes <<< 8 ||| byte.toBitVec.setWidth 128 := by
  unfold register
  rw [List.foldl_append]
  rfl

/-- Shifting a byte in multiplies by 256 and adds the byte, and the highest
byte is lost. -/
theorem toNat_shift_byte (value : BitVec 128) (byte : UInt8) :
    (value <<< 8 ||| byte.toBitVec.setWidth 128).toNat
      = (256 * value.toNat + byte.toNat) % twoTo 128 := by
  have hbyte := byte.toNat_lt
  have hshift : (value <<< 8).toNat = (value.toNat % twoTo 120) <<< 8 := by
    rw [BitVec.toNat_shiftLeft, Nat.shiftLeft_eq, Nat.shiftLeft_eq]
    exact Nat.mul_mod_mul_right (2 ^ 8) value.toNat (twoTo 120)
  have hlow : (byte.toBitVec.setWidth 128).toNat = byte.toNat := by
    rw [BitVec.toNat_setWidth, UInt8.toNat_toBitVec, Nat.mod_eq_of_lt (by omega)]
  rw [BitVec.toNat_or, hshift, hlow, ← Nat.shiftLeft_add_eq_or_of_lt hbyte, Nat.shiftLeft_eq]
  have hsize : twoTo 128 = 256 * twoTo 120 := rfl
  have hdiv : (256 * value.toNat + byte.toNat) / 256 = value.toNat := by omega
  have hmod : (256 * value.toNat + byte.toNat) % 256 = byte.toNat := by omega
  rw [hsize, Nat.mod_mul, hdiv, hmod, Nat.add_comm, Nat.mul_comm]

/-- A register holds the value of its bytes, modulo its size. -/
theorem toNat_register (bytes : List UInt8) :
    (register bytes).toNat = toNat bytes % twoTo 128 := by
  induction bytes using List.reverseRecOn with
  | nil => rfl
  | append_singleton bytes byte ih =>
      rw [register_append_singleton, toNat_shift_byte, ih, toNat_append_singleton,
        Nat.add_mod, Nat.mul_mod, Nat.mod_mod, ← Nat.mul_mod, ← Nat.add_mod]

/-- A register holds the value of at most 16 significant bytes. -/
theorem toNat_register_of_le {bytes : List UInt8} (h : (significant bytes).length ≤ 16) :
    (register (significant bytes)).toNat = toNat bytes := by
  rw [toNat_register, toNat_significant]
  exact Nat.mod_eq_of_lt (length_significant_le_iff.1 h)

/-- Of at most 8 significant bytes, nothing is lost when a register is cut to 64
bits. -/
theorem toNat_setWidth_register_of_le {bytes : List UInt8}
    (h : (significant bytes).length ≤ 8) :
    ((register (significant bytes)).setWidth 64).toNat = toNat bytes := by
  rw [BitVec.toNat_setWidth, toNat_register_of_le (by omega)]
  exact Nat.mod_eq_of_lt (length_significant_le_iff.1 h)

end MarketReplay.BigEndian
