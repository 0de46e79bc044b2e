/-
What is written in bech32 reads back.

A byte string is regrouped twice, from bytes into symbols and back. Both
groupings are of one list of bits, which the symbols only extend by less than
a byte (`flatMap_toSymbols`), so cutting it into bytes again gives the bytes
and a rest that is too short for one (`toBytes_toSymbols`). What the checksum
computes has no part in that: the reader computes it over the same values as
the writer.

The symbols are small letters and digits without the `1`, so the last `1` of a
text is the separator and a text under a small human-readable part is in one
case (`decode?_encode`). Account addresses are such texts (`Address.toKey_of_ofKey`).
-/
import MarketReplay.Address
import MarketReplay.Number.Power

namespace MarketReplay.Bech32

-- ================================================================= pieces

variable {α : Type}

/-- A whole piece is cut off in front. -/
theorem pieces_append {size : Nat} {first : List α} (h : first.length = size)
    (hne : size ≠ 0) (rest : List α) :
    pieces size (first ++ rest) = first :: pieces size rest := by
  rw [pieces, if_neg]
  · rw [← h, List.take_left, List.drop_left]
  · rw [List.length_append]
    omega

/-- What is shorter than a piece is a piece of its own, or nothing. -/
theorem pieces_of_lt {size : Nat} {list : List α} (h : list.length < size) :
    pieces size list = if list = [] then [] else [list] := by
  rw [pieces]
  cases list with
  | nil => simp
  | cons a list =>
      rw [if_neg (by simp; omega), if_neg (List.cons_ne_nil a list),
        List.take_of_length_le (Nat.le_of_lt h),
        List.drop_of_length_le (Nat.le_of_lt h), pieces_nil]

-- =================================================================== bits

@[simp] theorem length_bits (width value : Nat) :
    (bits width value).length = width := by
  simp [bits]

/-- The lightest bit stands last. -/
theorem bits_succ (width value : Nat) :
    bits (width + 1) value = bits width (value / 2) ++ [value.testBit 0] := by
  simp [bits, List.range_succ_eq_map, Function.comp_def, Nat.testBit_succ]

/-- A bit behind others doubles what they stand for. -/
theorem ofBits_concat (digits : List Bool) (digit : Bool) :
    ofBits (digits ++ [digit]) = 2 * ofBits digits + digit.toNat := by
  simp [ofBits]

/-- A number that fits is spelled by its bits. -/
theorem ofBits_bits {width value : Nat} (h : value < twoTo width) :
    ofBits (bits width value) = value := by
  induction width generalizing value with
  | zero => exact (Nat.lt_one_iff.1 h).symm
  | succ width ih =>
      have hpower : twoTo (width + 1) = twoTo width * 2 := rfl
      have hbit : (value.testBit 0).toNat = value % 2 := by
        rw [Nat.testBit_zero]
        rcases Nat.mod_two_eq_zero_or_one value with hmod | hmod <;> simp [hmod]
      rw [bits_succ, ofBits_concat, ih (by omega), hbit, Nat.div_add_mod]

/-- Bits are those of the number that they spell, and they bound it. -/
theorem bits_ofBits {width : Nat} {digits : List Bool}
    (h : digits.length = width) :
    bits width (ofBits digits) = digits ∧ ofBits digits < twoTo width := by
  induction width generalizing digits with
  | zero =>
      rw [List.length_eq_zero_iff.1 h]
      exact ⟨rfl, Nat.one_pos⟩
  | succ width ih =>
      have hpower : twoTo (width + 1) = twoTo width * 2 := rfl
      rcases List.eq_nil_or_concat digits with rfl | ⟨init, digit, rfl⟩
      · cases h
      · rw [List.concat_eq_append] at h ⊢
        rw [List.length_append, List.length_singleton] at h
        obtain ⟨hbits, hlt⟩ := ih (Nat.succ.inj h)
        have hdigit : digit.toNat < 2 := digit.toNat_lt
        have hrest : (2 * ofBits init + digit.toNat) / 2 = ofBits init := by
          omega
        have hlast : (2 * ofBits init + digit.toNat).testBit 0 = digit := by
          cases digit <;> simp [Nat.testBit_zero]
        rw [bits_succ, ofBits_concat, hrest, hlast, hbits]
        exact ⟨rfl, by omega⟩

-- ============================================================= regrouping

/-- A piece of bits filled up to a symbol. -/
theorem length_filled {piece : List Bool} (h : piece.length ≤ 5) :
    (piece ++ List.replicate (5 - piece.length) false).length = 5 := by
  rw [List.length_append, List.length_replicate]
  omega

/-- Bits that are cut into symbols and written out again are the same bits,
with less than one symbol of zeros behind them. -/
theorem flatMap_bits_pieces (list : List Bool) :
    ∃ k < 5, ((pieces 5 list).map fun piece =>
        ofBits (piece ++ List.replicate (5 - piece.length) false)).flatMap
          (bits 5)
      = list ++ List.replicate k false := by
  fun_induction pieces 5 list with
  | case1 list h =>
      have hnil : list = [] := List.length_eq_zero_iff.1 (h.resolve_left (by decide))
      exact ⟨0, by omega, by simp [hnil]⟩
  | case2 list h ih =>
      have hpiece : (list.take 5).length ≤ 5 := List.length_take_le 5 list
      rw [List.map_cons, List.flatMap_cons, (bits_ofBits (length_filled hpiece)).1]
      rcases Nat.lt_or_ge list.length 5 with hshort | hlong
      · -- the last piece is filled up
        refine ⟨5 - list.length, by omega, ?_⟩
        rw [List.take_of_length_le (by omega), List.drop_of_length_le (by omega),
          pieces_nil, List.map_nil, List.flatMap_nil, List.append_nil]
      · obtain ⟨k, hk, hrest⟩ := ih
        refine ⟨k, hk, ?_⟩
        rw [hrest, List.length_take, Nat.min_eq_left hlong, Nat.sub_self,
          List.replicate_zero, List.append_nil, ← List.append_assoc,
          List.take_append_drop]

/-- Values of one width have that many bits each. -/
theorem length_flatMap_bits {β : Type} (width : Nat) (value : β → Nat)
    (list : List β) :
    (list.flatMap fun b => bits width (value b)).length
      = width * list.length := by
  induction list with
  | nil => rfl
  | cons b list ih =>
      rw [List.flatMap_cons, List.length_append, ih, length_bits,
        List.length_cons, Nat.mul_succ, Nat.add_comm]

/-- The symbols of a byte string hold its bits, and less than a symbol of
zeros behind them. -/
theorem flatMap_toSymbols (bytes : List UInt8) :
    ∃ k < 5, (toSymbols bytes).flatMap (bits 5)
      = (bytes.flatMap fun byte => bits 8 byte.toNat)
        ++ List.replicate k false :=
  flatMap_bits_pieces _

/-- Bytes are read off their bits, and a rest below a byte is dropped. -/
theorem filter_pieces_bits (bytes : List UInt8) {rest : List Bool}
    (h : rest.length < 8) :
    ((pieces 8 ((bytes.flatMap fun byte => bits 8 byte.toNat) ++ rest)).filter
        (·.length == 8)).map (fun piece => UInt8.ofNat (ofBits piece))
      = bytes := by
  induction bytes with
  | nil =>
      rw [List.flatMap_nil, List.nil_append, pieces_of_lt h]
      have hne : rest.length ≠ 8 := Nat.ne_of_lt h
      split <;> simp [hne]
  | cons byte bytes ih =>
      have hbyte : ofBits (bits 8 byte.toNat) = byte.toNat :=
        ofBits_bits byte.toNat_lt
      rw [List.flatMap_cons, List.append_assoc,
        pieces_append (length_bits 8 _) (by decide),
        List.filter_cons_of_pos (by simp), List.map_cons, ih, hbyte,
        UInt8.ofNat_toNat]

/-- A symbol holds five bits, and the last one at least one of a byte. -/
theorem length_toSymbols_le (bytes : List UInt8) :
    5 * (toSymbols bytes).length ≤ 8 * bytes.length + 4 := by
  obtain ⟨k, hk, hbits⟩ := flatMap_toSymbols bytes
  have hlength := congrArg List.length hbits
  rw [List.length_append, length_flatMap_bits 8, List.length_replicate]
    at hlength
  have hsymbols := (length_flatMap_bits 5 id (toSymbols bytes)).symm.trans hlength
  omega

/-- Bytes that are regrouped into symbols are regrouped back. -/
@[simp] theorem toBytes_toSymbols (bytes : List UInt8) :
    toBytes (toSymbols bytes) = bytes := by
  obtain ⟨k, hk, hbits⟩ := flatMap_toSymbols bytes
  unfold toBytes
  rw [hbits]
  exact filter_pieces_bits bytes (by rw [List.length_replicate]; omega)

-- ================================================================ symbols

/-- A symbol has five bits. -/
theorem lt_of_mem_toSymbols {bytes : List UInt8} {value : Nat}
    (h : value ∈ toSymbols bytes) : value < 32 := by
  obtain ⟨piece, hpiece, rfl⟩ := List.mem_map.1 h
  have hlength := (length_of_mem_pieces hpiece).2
  exact (bits_ofBits (length_filled hlength)).2

/-- Each value of a checksum has five bits. -/
theorem lt_of_mem_checksum {final : UInt32} {hrp : List Char}
    {values : List Nat} {value : Nat} (h : value ∈ checksum final hrp values) :
    value < 32 := by
  obtain ⟨shift, -, rfl⟩ := List.mem_map.1 h
  exact Nat.mod_lt _ (by decide)

@[simp] theorem length_checksum (final : UInt32) (hrp : List Char)
    (values : List Nat) : (checksum final hrp values).length = 6 := rfl

/-- A symbol is the character of its value, is no separator and no capital. -/
theorem symbol_spec {value : Nat} (h : value < 32) :
    value? (symbol value) = some value ∧ symbol value ≠ '1'
      ∧ (symbol value).isUpper = false := by
  have hall : ∀ v : Fin 32, value? (symbol v) = some v.val
      ∧ symbol v ≠ '1' ∧ (symbol v).isUpper = false := by decide
  exact hall ⟨value, h⟩

/-- Values that are written as characters are read back. -/
theorem mapM_value?_symbol {values : List Nat} (h : ∀ v ∈ values, v < 32) :
    (values.map symbol).mapM value? = some values := by
  induction values with
  | nil => rfl
  | cons value values ih =>
      obtain ⟨hvalue, hrest⟩ := List.forall_mem_cons.1 h
      rw [List.map_cons, List.mapM_cons, (symbol_spec hvalue).1, ih hrest]
      rfl

-- ================================================================= a text

/-- A text is its human-readable part, the separator, the symbols, and the
checksum. -/
theorem toList_encode (hrp : String) (bytes : List UInt8) :
    (encode hrp bytes).toList = hrp.toList ++ '1' ::
      (toSymbols bytes ++ checksum constant hrp.toList (toSymbols bytes)).map
        symbol := by
  simp [encode]

/-- In front of the separator stands the human-readable part, and behind it
the symbols. -/
theorem separate {symbols : List Char} (hrp : List Char)
    (h : ∀ c ∈ symbols, c ≠ '1') :
    let back := (hrp ++ '1' :: symbols).reverse
    (back.takeWhile (· != '1')).reverse = symbols
      ∧ ((back.dropWhile (· != '1')).drop 1).reverse = hrp := by
  intro back
  have hback : back = symbols.reverse ++ '1' :: hrp.reverse := by
    simp [back]
  have hall : ∀ c ∈ symbols.reverse, (c != '1') = true := by
    intro c hc
    rw [bne_iff_ne]
    exact h c (List.mem_reverse.1 hc)
  rw [hback, List.takeWhile_append_of_pos hall, List.dropWhile_append_of_pos hall]
  simp

/-- A check that holds does not stop the reading. -/
theorem guard_bind {p : Prop} [Decidable p] (h : p) {β : Type}
    (more : Unit → Option β) : (guard p >>= more) = more () := by
  rw [show (guard p : Option Unit) = some () from if_pos h]
  rfl

/-- A text under a small human-readable part that is not too long reads back. -/
theorem decode?_encode {hrp : String} (hhrp : isHrp hrp.toList = true)
    (hsmall : ∀ c ∈ hrp.toList, c.isUpper = false) {bytes : List UInt8}
    (hlength : hrp.toList.length + (toSymbols bytes).length ≤ 1016) :
    decode? (encode hrp bytes) = some (hrp, bytes) := by
  have hbytes := toBytes_toSymbols bytes
  have hlt : ∀ v ∈ toSymbols bytes
      ++ checksum constant hrp.toList (toSymbols bytes), v < 32 := by
    intro v hv
    exact (List.mem_append.1 hv).elim lt_of_mem_toSymbols lt_of_mem_checksum
  have hsix := length_checksum constant hrp.toList (toSymbols bytes)
  have htext := toList_encode hrp bytes
  -- from here on the values are any that are small and spell the bytes
  generalize toSymbols bytes = values at *
  generalize hclosing : checksum constant hrp.toList values = closing at *
  have hsymbols : ∀ c ∈ (values ++ closing).map symbol,
      c ≠ '1' ∧ c.isUpper = false := by
    intro c hc
    obtain ⟨v, hv, rfl⟩ := List.mem_map.1 hc
    exact (symbol_spec (hlt v hv)).2
  obtain ⟨htail, hfront⟩ := separate hrp.toList fun c hc => (hsymbols c hc).1
  have hcount : (encode hrp bytes).toList.length ≤ 1023 := by
    simp [htext, hsix]
    omega
  have hupper : (encode hrp bytes).toList.any Char.isUpper = false := by
    rw [htext, List.any_eq_false]
    intro c hc
    rw [Bool.not_eq_true]
    rcases List.mem_append.1 hc with hc | hc
    · exact hsmall c hc
    · rcases List.mem_cons.1 hc with rfl | hc
      · decide
      · exact (hsymbols c hc).2
  have hpayload : (values ++ closing).length - 6 = values.length := by
    rw [List.length_append, hsix, Nat.add_sub_cancel]
  have hmany : 6 ≤ (values ++ closing).length := by
    rw [List.length_append, hsix]
    exact Nat.le_add_left 6 values.length
  have hone : (!((encode hrp bytes).toList.any Char.isUpper
      && (encode hrp bytes).toList.any Char.isLower)) = true := by
    rw [hupper]
    rfl
  have hchecked : (closing == closing
      || closing == checksum constantM hrp.toList values) = true := by
    rw [beq_self_eq_true, Bool.true_or]
  rw [← htext] at htail hfront
  unfold decode?
  dsimp only
  rw [htail, hfront, guard_bind hcount, guard_bind hone, guard_bind hhrp,
    mapM_value?_symbol hlt, Option.bind_eq_bind, Option.bind_some,
    guard_bind hmany, hpayload, List.take_left, List.drop_left, hclosing,
    guard_bind hchecked, hbytes, String.ofList_toList]
  rfl

end MarketReplay.Bech32

-- ============================================================== addresses

namespace MarketReplay.Address

/-- The address of a key is read as that key. -/
theorem toKey_of_ofKey {key : List UInt8} {address : String}
    (h : ofKey key = .ok address) : toKey address = .ok key := by
  unfold ofKey at h
  split at h
  next hlength =>
    cases h
    have hcount := Bech32.length_toSymbols_le key
    rw [show key.length = 32 from hlength] at hcount
    have hhrp : hrp.toList.length = 3 := rfl
    unfold toKey
    have hsmall : ∀ c ∈ hrp.toList, c.isUpper = false := by simp [hrp]
    rw [Bech32.decode?_encode (by decide) hsmall (by omega)]
    simp [hlength]
  next => cases h

end MarketReplay.Address
