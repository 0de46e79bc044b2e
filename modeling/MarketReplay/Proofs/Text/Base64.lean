/-
What is written in base64 reads back.

Writing and reading go group by group, three bytes at a time, so the induction
is on the groups. Two things make a group readable. A symbol is the character
of its value and of no other (`value?_symbol`), and none is the filling, so
that a full group is never taken for a filled one (`decodeChars?_full`). And
the four values of a group hold its bytes bit for bit, which is arithmetic on
quotients and remainders.
-/
import MarketReplay.Text.Base64

namespace MarketReplay.Base64

-- ============================================================ one symbol

theorem value?_symbol {value : Nat} (h : value < 64) :
    value? (symbol value) = some value := by
  have hall : ∀ v : Fin 64, value? (symbol v) = some v.val := by decide
  exact hall ⟨value, h⟩

theorem symbol_ne_filling {value : Nat} (h : value < 64) :
    symbol value ≠ '=' := by
  have hall : ∀ v : Fin 64, symbol v ≠ '=' := by decide
  exact hall ⟨value, h⟩

-- ============================================================= one group

/-- Four characters of which the last is no filling are a full group. -/
theorem decodeChars?_full (a b c d : Char) (rest : List Char) (h : d ≠ '=') :
    decodeChars? (a :: b :: c :: d :: rest) = (do
      let x ← value? a
      let y ← value? b
      let z ← value? c
      let w ← value? d
      let bytes ← decodeChars? rest
      return UInt8.ofNat (x * 4 + y / 16) :: UInt8.ofNat (y % 16 * 16 + z / 4) ::
        UInt8.ofNat (z % 4 * 64 + w) :: bytes) := by
  rw [decodeChars?]
  · rintro - rfl
    exact fun _ => h rfl
  · exact fun hd => absurd hd h

/-- Three characters of which the last is no filling, and then one filling. -/
theorem decodeChars?_filled (a b c : Char) (h : c ≠ '=') :
    decodeChars? [a, b, c, '='] = (do
      let x ← value? a
      let y ← value? b
      let z ← value? c
      if z % 4 = 0 then
        some [UInt8.ofNat (x * 4 + y / 16), UInt8.ofNat (y % 16 * 16 + z / 4)]
      else none) := by
  rw [decodeChars?]
  exact h

-- ================================================================ a text

/-- The characters of a byte string spell that byte string. -/
theorem decodeChars?_encodeChars (bytes : List UInt8) :
    decodeChars? (encodeChars bytes) = some bytes := by
  -- one case for each length of the last group: none, one byte, two, or a full one
  fun_induction encodeChars bytes with
  | case1 => rfl
  | case2 a =>
      have ha := a.toNat_lt
      have hbits : a.toNat % 4 * 16 % 16 = 0 := by omega
      have hbyte : a.toNat / 4 * 4 + a.toNat % 4 * 16 / 16 = a.toNat := by omega
      rw [decodeChars?, value?_symbol (by omega), value?_symbol (by omega)]
      simp only [Option.bind_eq_bind, Option.bind_some, if_pos hbits, hbyte,
        UInt8.ofNat_toNat]
  | case3 a b =>
      have ha := a.toNat_lt
      have hb := b.toNat_lt
      have hbits : b.toNat % 16 * 4 % 4 = 0 := by omega
      have hfirst : a.toNat / 4 * 4 + (a.toNat % 4 * 16 + b.toNat / 16) / 16
          = a.toNat := by omega
      have hsecond : (a.toNat % 4 * 16 + b.toNat / 16) % 16 * 16
          + b.toNat % 16 * 4 / 4 = b.toNat := by omega
      rw [decodeChars?_filled _ _ _ (symbol_ne_filling (by omega)),
        value?_symbol (by omega), value?_symbol (by omega),
        value?_symbol (by omega)]
      simp only [Option.bind_eq_bind, Option.bind_some, if_pos hbits, hfirst,
        hsecond, UInt8.ofNat_toNat]
  | case4 a b c rest ih =>
      have ha := a.toNat_lt
      have hb := b.toNat_lt
      have hc := c.toNat_lt
      have hfirst : a.toNat / 4 * 4 + (a.toNat % 4 * 16 + b.toNat / 16) / 16
          = a.toNat := by omega
      have hsecond : (a.toNat % 4 * 16 + b.toNat / 16) % 16 * 16
          + (b.toNat % 16 * 4 + c.toNat / 64) / 4 = b.toNat := by omega
      have hthird : (b.toNat % 16 * 4 + c.toNat / 64) % 4 * 64 + c.toNat % 64
          = c.toNat := by omega
      rw [decodeChars?_full _ _ _ _ _ (symbol_ne_filling (by omega)),
        value?_symbol (by omega), value?_symbol (by omega),
        value?_symbol (by omega), value?_symbol (by omega), ih]
      simp only [Option.bind_eq_bind, Option.bind_some, Option.pure_def, hfirst,
        hsecond, hthird, UInt8.ofNat_toNat]

@[simp] theorem decode?_encode (bytes : List UInt8) :
    decode? (encode bytes) = some bytes := by
  unfold decode? encode
  rw [String.toList_ofList, decodeChars?_encodeChars]

end MarketReplay.Base64
