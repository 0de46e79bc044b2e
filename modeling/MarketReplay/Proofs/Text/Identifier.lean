/-
An identifier names one token.

Behind the last hyphen of an identifier stands the nonce, because no
hexadecimal digit is a hyphen, and in front of it the collection, whatever
hyphens and digits that holds itself (`append_hyphen_inj`). The digits tell the
bytes (`Hex.decode?_encode`), and the bytes the nonce (`toNat_nonceBytes`): of
its spellings with leading zeros only the shortest whole number of bytes is
ever written. So no two tokens share an identifier (`tokenIdentifier_inj`).
-/
import MarketReplay.Token

namespace MarketReplay

-- =========================================================== hexadecimal

namespace Hex

theorem value?_digit : ∀ value < 16, value? (digit value) = some value := by
  decide

theorem digit_ne_hyphen : ∀ value < 16, digit value ≠ '-' := by
  decide

theorem hyphen_notMem_ofByte (byte : UInt8) : '-' ∉ ofByte byte := by
  have hbyte : byte.toNat < 256 := byte.toNat_lt
  have hhigh := digit_ne_hyphen (byte.toNat / 16) (by omega)
  have hlow := digit_ne_hyphen (byte.toNat % 16) (by omega)
  simp [ofByte, hhigh.symm, hlow.symm]

/-- No digit is a hyphen. -/
theorem hyphen_notMem_encode (bytes : List UInt8) : '-' ∉ (encode bytes).toList := by
  unfold encode
  rw [String.toList_ofList, List.mem_flatMap]
  rintro ⟨byte, -, hmem⟩
  exact hyphen_notMem_ofByte byte hmem

/-- The digits of a byte, read first. -/
theorem decodePairs?_ofByte_append (byte : UInt8) (rest : List Char) :
    decodePairs? (ofByte byte ++ rest) = (decodePairs? rest).map (byte :: ·) := by
  have hbyte : byte.toNat < 256 := byte.toNat_lt
  have hhigh := value?_digit (byte.toNat / 16) (by omega)
  have hlow := value?_digit (byte.toNat % 16) (by omega)
  have hwhole : UInt8.ofNat (16 * (byte.toNat / 16) + byte.toNat % 16) = byte := by
    rw [Nat.div_add_mod, UInt8.ofNat_toNat]
  show decodePairs? (digit _ :: digit _ :: rest) = _
  rw [decodePairs?, hhigh, hlow]
  cases decodePairs? rest with
  | none => rfl
  | some bytes => exact congrArg (fun first => some (first :: bytes)) hwhole

/-- Bytes read back as they were written. -/
theorem decode?_encode (bytes : List UInt8) : decode? (encode bytes) = some bytes := by
  unfold decode? encode
  rw [String.toList_ofList]
  induction bytes with
  | nil => rfl
  | cons byte bytes ih =>
      rw [List.flatMap_cons, decodePairs?_ofByte_append, ih]
      rfl

end Hex

-- ================================================================ tokens

/-- The bytes of a nonce tell it. -/
theorem toNat_nonceBytes (nonce : Nat) : BigEndian.toNat (nonceBytes nonce) = nonce := by
  unfold nonceBytes
  split
  next hzero => exact hzero.symm
  next => exact BigEndian.toNat_ofNat nonce

/-- In front of the first hyphen of a text without another one stands
nothing. -/
theorem eq_nil_of_hyphen {back more rest : List Char} (hback : '-' ∉ back)
    (h : '-' :: back = more ++ '-' :: rest) : more = [] := by
  cases more with
  | nil => rfl
  | cons c more =>
      have hmem : '-' ∈ back := by
        rw [(List.cons.inj h).2]
        exact List.mem_append_right more List.mem_cons_self
      exact absurd hmem hback

/-- A text is cut in one way only at its last hyphen. -/
theorem append_hyphen_inj {front other back rest : List Char}
    (hback : '-' ∉ back) (hrest : '-' ∉ rest)
    (h : front ++ '-' :: back = other ++ '-' :: rest) :
    front = other ∧ back = rest := by
  have hfront : front = other := by
    -- were one front longer, the back of the other would hold its hyphen
    rcases List.append_eq_append_iff.1 h with ⟨more, hmore, hsplit⟩ | ⟨more, hmore, hsplit⟩
    · rw [hmore, eq_nil_of_hyphen hback hsplit, List.append_nil]
    · rw [hmore, eq_nil_of_hyphen hrest hsplit, List.append_nil]
  subst hfront
  exact ⟨rfl, (List.cons.inj (List.append_cancel_left h)).2⟩

theorem toList_tokenIdentifier (collection : String) (nonce : Nat) :
    (tokenIdentifier collection nonce).toList
      = collection.toList ++ '-' :: (Hex.encode (nonceBytes nonce)).toList := by
  unfold tokenIdentifier
  rw [String.toList_append, String.toList_append, List.append_assoc]
  rfl

/-- No two tokens share an identifier, whatever their collections are called. -/
theorem tokenIdentifier_inj {collection other : String} {nonce number : Nat} :
    tokenIdentifier collection nonce = tokenIdentifier other number
      ↔ collection = other ∧ nonce = number := by
  constructor
  · intro h
    have htext := congrArg String.toList h
    rw [toList_tokenIdentifier, toList_tokenIdentifier] at htext
    obtain ⟨hfront, hback⟩ := append_hyphen_inj (Hex.hyphen_notMem_encode _)
      (Hex.hyphen_notMem_encode _) htext
    have hbytes : nonceBytes nonce = nonceBytes number := by
      refine Option.some.inj ?_
      rw [← Hex.decode?_encode, String.toList_inj.1 hback, Hex.decode?_encode]
    refine ⟨String.toList_inj.1 hfront, ?_⟩
    rw [← toNat_nonceBytes nonce, hbytes, toNat_nonceBytes]
  · rintro ⟨rfl, rfl⟩
    rfl

end MarketReplay
