/-
The shortest byte string of a number.

A written number starts with a byte that is not zero (`head?_ofNat_ne`), so
none of its bytes is dropped when its width is measured (`significant_ofNat`),
and it is as wide as its size asks for (`length_ofNat_le`).
-/
import MarketReplay.Number.BigEndian
import MarketReplay.Number.Power

namespace MarketReplay.BigEndian

theorem ofNat_eq_nil_iff {value : Nat} : ofNat value = [] ↔ value = 0 := by
  constructor
  · intro h
    rw [← toNat_ofNat value, h, toNat_nil]
  · rintro rfl
    exact ofNat_zero

theorem ofNat_byte_ne_zero {value : Nat} (h : value ≠ 0) (hsmall : value < 256) :
    UInt8.ofNat (value % 256) ≠ 0 := by
  intro hzero
  have hvalue := congrArg UInt8.toNat hzero
  rw [UInt8.toNat_ofNat'] at hvalue
  change value % 256 % 256 = 0 at hvalue
  omega

/-- No written number starts with a zero byte. -/
theorem head?_ofNat_ne (value : Nat) : (ofNat value).head? ≠ some 0 := by
  induction value using Nat.strongRecOn with
  | ind value ih =>
      by_cases h : value = 0
      · simp [h]
      · rw [ofNat_of_ne_zero h]
        by_cases hsmall : value / 256 = 0
        · -- one byte, the number itself
          rw [hsmall, ofNat_zero, List.nil_append, List.head?_cons]
          intro hbyte
          exact ofNat_byte_ne_zero h (by omega) (Option.some.inj hbyte)
        · have hhead := ih (value / 256) (by omega)
          cases hbytes : ofNat (value / 256) with
          | nil => exact absurd (ofNat_eq_nil_iff.1 hbytes) hsmall
          | cons byte rest =>
              rw [hbytes] at hhead
              exact hhead

theorem significant_eq_self {bytes : List UInt8} (h : bytes.head? ≠ some 0) :
    significant bytes = bytes := by
  unfold significant
  cases bytes with
  | nil => rfl
  | cons byte rest =>
      have hbyte : byte ≠ 0 := fun hzero => h (congrArg some hzero)
      exact List.dropWhile_cons_of_neg (by simpa using hbyte)

@[simp] theorem significant_ofNat (value : Nat) :
    significant (ofNat value) = ofNat value :=
  significant_eq_self (head?_ofNat_ne value)

theorem twoTo_succ_byte (width : Nat) :
    twoTo (8 * (width + 1)) = twoTo (8 * width) * 256 :=
  Nat.pow_add 2 (8 * width) 8

/-- A number below a power of two needs no more bytes than the power. -/
theorem length_ofNat_le {value width : Nat} (h : value < twoTo (8 * width)) :
    (ofNat value).length ≤ width := by
  induction width generalizing value with
  | zero =>
      have hzero : value = 0 := Nat.lt_one_iff.1 h
      simp [hzero]
  | succ width ih =>
      by_cases hvalue : value = 0
      · simp [hvalue]
      · rw [ofNat_of_ne_zero hvalue, List.length_append, List.length_singleton]
        exact Nat.succ_le_succ
          (ih (Nat.div_lt_of_lt_mul (by rwa [Nat.mul_comm, ← twoTo_succ_byte])))

end MarketReplay.BigEndian
