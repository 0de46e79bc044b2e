/-
Topics that were written, and are read from a log that may have been cut.

Each reader reads back what its writer wrote: `raw_cut` says so of the bytes,
and every other reader is a way of looking at these. A log that was cut to
some count of topics is read the same where it was not cut; behind that, a
reader for which the topic may be absent takes its default (`kept`).
-/
import MarketReplay.Action.Log
import MarketReplay.Proofs.Number.BigEndian
import MarketReplay.Proofs.Text.Base64
import MarketReplay.Proofs.Text.Bech32

namespace MarketReplay

/-- The number is one of 64 bits. -/
def IsWord (value : Nat) : Prop := value < twoTo 64

/-- The number is one of 128 bits. -/
def IsAmount (value : Nat) : Prop := value < twoTo 128

/-- The time is one that a signed word holds, and not before the epoch. -/
def IsTime (time : Int) : Prop := 0 ≤ time ∧ time ≤ Topics.lastTimestamp

instance (value : Nat) : Decidable (IsWord value) :=
  inferInstanceAs (Decidable (_ < _))

instance (value : Nat) : Decidable (IsAmount value) :=
  inferInstanceAs (Decidable (_ < _))

instance (time : Int) : Decidable (IsTime time) :=
  inferInstanceAs (Decidable (_ ∧ _))

/-- The text is the address of some key. -/
def IsAddress (address : String) : Prop :=
  ∃ key, Address.ofKey key = .ok address

/-- The argument at a place of a log that was cut to a count of topics: itself
before the cut, and a default behind. -/
def kept {α : Type} (count index : Nat) (argument default : α) : α :=
  if index < count then argument else default

/-- What stands before the cut is kept. -/
theorem kept_of_lt {α : Type} {count index : Nat} (h : index < count)
    (argument default : α) : kept count index argument default = argument :=
  if_pos h

/-- Behind the cut, the default is read. -/
theorem kept_of_le {α : Type} {count index : Nat} (h : count ≤ index)
    (argument default : α) : kept count index argument default = default :=
  if_neg (Nat.not_lt.2 h)

/-- Reading the argument, and reading the default, are one reading. -/
theorem map_kept {α β : Type} (f : α → β) (count index : Nat)
    (argument default : α) :
    f (kept count index argument default)
      = kept count index (f argument) (f default) := by
  unfold kept
  split <;> rfl

/-- An argument that is its own default does not depend on the cut. -/
theorem kept_self {α : Type} (count index : Nat) (argument : α) :
    kept count index argument argument = argument :=
  ite_self argument

/-- One step of a reader: what follows a topic takes what was read from it. -/
theorem bind_eq {ε α β : Type} {read : Except ε α} {a : α} {more : α → Except ε β}
    {result : Except ε β} (h : read = .ok a) (hmore : more a = result) :
    (read >>= more) = result := by
  rw [h]
  exact hmore

namespace Topics

/-- The first topics of a log. -/
def cut (topics : Topics) (count : Nat) : Topics := ⟨topics.texts.take count⟩

variable {α : Type} {topics : Topics} {index : Nat} {bytes : List UInt8}

-- =================================================================== bytes

/-- The bytes of an optional topic are those that were written, or none behind
the cut. -/
theorem raw_cut (h : topics.texts[index]? = some (Topic.ofBytes bytes))
    (count : Nat) :
    (topics.cut count).raw index = .ok (kept count index (some bytes) none) := by
  unfold raw cut
  rw [List.getElem?_take]
  rcases Nat.lt_or_ge index count with hcount | hcount
  · rw [if_pos hcount, h, kept_of_lt hcount, Topic.ofBytes]
    dsimp only
    rw [Base64.decode?_encode]
  · rw [if_neg (Nat.not_lt.2 hcount), kept_of_le hcount]

/-- The bytes of a required topic are those that were written. -/
theorem bytes_cut (h : topics.texts[index]? = some (Topic.ofBytes bytes))
    {count : Nat} (hcount : index < count) :
    (topics.cut count).bytes index = .ok bytes := by
  unfold Topics.bytes
  refine bind_eq (raw_cut h count) ?_
  rw [kept_of_lt hcount]
  rfl

/-- A topic without bytes counts as none, like one that was cut off. -/
theorem content_cut (h : topics.texts[index]? = some (Topic.ofBytes bytes))
    (count : Nat) :
    (topics.cut count).content index
      = .ok (kept count index (if bytes = [] then none else some bytes) none) := by
  unfold content
  refine bind_eq (raw_cut h count) ?_
  rcases Nat.lt_or_ge index count with hcount | hcount
  · rw [kept_of_lt hcount, kept_of_lt hcount]
    cases bytes <;> rfl
  · rw [kept_of_le hcount, kept_of_le hcount]
    rfl

-- ================================================================= numbers

/-- A number that fits the width is read back from its shortest encoding. -/
theorem number_ofNat {value width : Nat} (h : value < twoTo (8 * width))
    (index : Nat) :
    number index width (BigEndian.ofNat value) = .ok value := by
  unfold number
  rw [BigEndian.significant_ofNat, BigEndian.toNat_ofNat]
  exact if_neg (Nat.not_lt.2 (BigEndian.length_ofNat_le h))

theorem sized_cut {value width : Nat}
    (h : topics.texts[index]? = some (Topic.ofNat value))
    (hvalue : value < twoTo (8 * width)) {count : Nat} (hcount : index < count) :
    (topics.cut count).sized index width = .ok value :=
  bind_eq (bytes_cut h hcount) (number_ofNat hvalue index)

/-- A number that may be left out is read back, or is zero behind the cut. -/
theorem sizedOrZero_cut {value width : Nat}
    (h : topics.texts[index]? = some (Topic.ofNat value))
    (hvalue : value < twoTo (8 * width)) (count : Nat) :
    (topics.cut count).sizedOrZero index width
      = .ok (kept count index value 0) := by
  unfold sizedOrZero
  refine bind_eq (raw_cut h count) ?_
  rcases Nat.lt_or_ge index count with hcount | hcount
  · rw [kept_of_lt hcount, kept_of_lt hcount]
    exact number_ofNat hvalue index
  · rw [kept_of_le hcount, kept_of_le hcount]
    rfl

section

variable {value : Nat} (h : topics.texts[index]? = some (Topic.ofNat value))

include h

/-- A required word is read back. -/
theorem word_cut (hvalue : IsWord value) {count : Nat} (hcount : index < count) :
    (topics.cut count).word index = .ok value := by
  have : value < twoTo (8 * 8) := hvalue
  exact sized_cut h this hcount

/-- A required amount is read back. -/
theorem amount_cut (hvalue : IsAmount value) {count : Nat}
    (hcount : index < count) : (topics.cut count).amount index = .ok value := by
  have : value < twoTo (8 * 16) := hvalue
  exact sized_cut h this hcount

/-- A word that may be left out is read back, or is zero behind the cut. -/
theorem wordOrZero_cut (hvalue : IsWord value) (count : Nat) :
    (topics.cut count).wordOrZero index = .ok (kept count index value 0) := by
  have : value < twoTo (8 * 8) := hvalue
  exact sizedOrZero_cut h this count

/-- An amount that may be left out is read back, or is zero behind the cut. -/
theorem amountOrZero_cut (hvalue : IsAmount value) (count : Nat) :
    (topics.cut count).amountOrZero index = .ok (kept count index value 0) := by
  have : value < twoTo (8 * 16) := hvalue
  exact sizedOrZero_cut h this count

end

-- ====================================================== optional arguments

/-- The content of an argument that is absent or has bytes to it. -/
theorem content_cut_ofOptional {argument : Option α} {write : α → List UInt8}
    (h : topics.texts[index]?
      = some (Layout.ofOptional (fun a => Topic.ofBytes (write a)) argument))
    (hwrite : ∀ a ∈ argument, write a ≠ []) (count : Nat) :
    (topics.cut count).content index
      = .ok (kept count index (argument.map write) none) := by
  cases argument with
  | none =>
    rw [content_cut h, if_pos rfl]
    rfl
  | some a =>
    rw [content_cut h, if_neg (hwrite a rfl)]
    rfl

/-- An optional amount is read back: absent and zero are written the same, so
zero is never present. -/
theorem amountOptional_cut {argument : Option Nat}
    (h : topics.texts[index]? = some (Layout.ofOptional Topic.ofNat argument))
    (hvalue : ∀ value ∈ argument, IsAmount value ∧ value ≠ 0) (count : Nat) :
    (topics.cut count).amountOptional index
      = .ok (kept count index argument none) := by
  have hcontent := content_cut_ofOptional h
    (fun value hmem => mt BigEndian.ofNat_eq_nil_iff.1 (hvalue value hmem).2) count
  refine bind_eq hcontent ?_
  cases argument with
  | none =>
    rw [Option.map_none, kept_self, kept_self]
    rfl
  | some value =>
    rcases Nat.lt_or_ge index count with hcount | hcount
    · rw [kept_of_lt hcount, kept_of_lt hcount]
      exact bind_eq (amount_cut h (hvalue value rfl).1 hcount) rfl
    · rw [kept_of_le hcount, kept_of_le hcount]
      rfl

-- =================================================================== times

/-- A time is a word, and is not cut off at the last timestamp. -/
theorem toNat_of_isTime {time : Int} (h : IsTime time) :
    IsWord time.toNat ∧ (min time.toNat lastTimestamp : Nat) = time := by
  obtain ⟨hnonneg, hlast⟩ := h
  have hlt : lastTimestamp < twoTo 64 := by decide
  unfold IsWord
  omega

/-- A time that may be left out is read back, or is zero behind the cut. -/
theorem timestampOrZero_cut {time : Int}
    (h : topics.texts[index]? = some (Layout.ofTime time)) (htime : IsTime time)
    (count : Nat) :
    (topics.cut count).timestampOrZero index = .ok (kept count index time 0) := by
  obtain ⟨hword, hmin⟩ := toNat_of_isTime htime
  refine bind_eq (wordOrZero_cut h hword count) ?_
  rcases Nat.lt_or_ge index count with hcount | hcount
  · rw [kept_of_lt hcount, kept_of_lt hcount, hmin]
    rfl
  · rw [kept_of_le hcount, kept_of_le hcount]
    rfl

/-- No time is written like time zero. -/
theorem ofOptional_ofTime (time : Option Int) :
    Layout.ofOptional Layout.ofTime time = Layout.ofTime (time.getD 0) := by
  cases time with
  | none =>
    change Topic.ofBytes [] = Topic.ofBytes (BigEndian.ofNat 0)
    rw [BigEndian.ofNat_zero]
  | some time => rfl

/-- An optional time is read back, for times other than zero. -/
theorem timestampOptional_cut {argument : Option Int}
    (h : topics.texts[index]? = some (Layout.ofOptional Layout.ofTime argument))
    (htime : ∀ time ∈ argument, IsTime time ∧ time ≠ 0) (count : Nat) :
    (topics.cut count).timestampOptional index
      = .ok (kept count index argument none) := by
  rw [ofOptional_ofTime] at h
  cases argument with
  | none =>
    refine bind_eq (wordOrZero_cut h (by decide) count) ?_
    rw [Option.getD_none, Int.toNat_zero, kept_self, kept_self]
    rfl
  | some time =>
    obtain ⟨hvalid, hzero⟩ := htime time rfl
    refine bind_eq (wordOrZero_cut h (toNat_of_isTime hvalid).1 count) ?_
    rcases Nat.lt_or_ge index count with hcount | hcount
    · have hpositive : time.toNat ≠ 0 := by
        have := hvalid.1
        omega
      rw [kept_of_lt hcount, kept_of_lt hcount, Option.getD_some]
      obtain ⟨before, hbefore⟩ := Nat.exists_eq_succ_of_ne_zero hpositive
      rw [hbefore]
      refine bind_eq (timestampOrZero_cut h hvalid count) ?_
      rw [kept_of_lt hcount]
      rfl
    · rw [kept_of_le hcount, kept_of_le hcount]
      rfl

-- ====================================================== text and addresses

/-- A required text is read back. -/
theorem text_cut {text : String}
    (h : topics.texts[index]? = some (Topic.ofText text)) {count : Nat}
    (hcount : index < count) : (topics.cut count).text index = .ok text := by
  refine bind_eq (bytes_cut h hcount) ?_
  unfold decodeText
  rw [Utf8.decode?_encode]

/-- A text that is not empty has bytes. -/
theorem encode_ne_nil {text : String} (h : text ≠ "") : Utf8.encode text ≠ [] := by
  intro hnil
  have htext := Utf8.decode?_encode text
  rw [hnil] at htext
  exact h (Option.some.inj htext).symm

/-- An optional text is read back: absent and empty are written the same, so
the empty text is never present. -/
theorem textOptional_cut {argument : Option String}
    (h : topics.texts[index]? = some (Layout.ofOptional Topic.ofText argument))
    (hargument : argument ≠ some "") (count : Nat) :
    (topics.cut count).textOptional index
      = .ok (kept count index argument none) := by
  have hcontent := content_cut_ofOptional h
    (fun text hmem => encode_ne_nil fun hempty => hargument (hempty ▸ hmem)) count
  refine bind_eq hcontent ?_
  cases argument with
  | none =>
    rw [Option.map_none, kept_self, kept_self]
    rfl
  | some text =>
    rcases Nat.lt_or_ge index count with hcount | hcount
    · rw [kept_of_lt hcount, kept_of_lt hcount, Option.map_some]
      dsimp only
      unfold decodeText
      rw [Utf8.decode?_encode]
      rfl
    · rw [kept_of_le hcount, kept_of_le hcount]
      rfl

/-- An address that was encoded from a key is written as the bytes of that key.
-/
theorem ofAddress_of_ofKey {key : List UInt8} {address : String}
    (h : Address.ofKey key = .ok address) :
    Topic.ofAddress address = .ok (Topic.ofBytes key) := by
  unfold Topic.ofAddress
  rw [Address.toKey_of_ofKey h]
  rfl

/-- The bytes of a key are read as its address. -/
theorem decodeAddress_of_ofKey {key : List UInt8} {address : String}
    (h : Address.ofKey key = .ok address) (index : Nat) :
    decodeAddress index key = .ok address := by
  unfold decodeAddress
  rw [h]

/-- An address has a topic, and that reads back as the address. -/
theorem exists_ofAddress {address : String} (h : IsAddress address) :
    ∃ topic, Topic.ofAddress address = .ok topic
      ∧ ∀ {topics : Topics} {index count : Nat},
        topics.texts[index]? = some topic → index < count →
          (topics.cut count).address index = .ok address := by
  obtain ⟨key, hkey⟩ := h
  refine ⟨Topic.ofBytes key, ofAddress_of_ofKey hkey, fun htopic hcount => ?_⟩
  exact bind_eq (bytes_cut htopic hcount) (decodeAddress_of_ofKey hkey _)

/-- An address that may be absent has a topic, and that reads back as the
address, or as nothing. -/
theorem exists_ofOptionalAddress {argument : Option String}
    (h : ∀ address ∈ argument, IsAddress address) :
    ∃ topic, Layout.ofOptionalAddress argument = .ok topic
      ∧ ∀ {topics : Topics} {index count : Nat},
        topics.texts[index]? = some topic →
          (topics.cut count).addressOptional index
            = .ok (kept count index argument none) := by
  cases argument with
  | none =>
    refine ⟨Topic.ofBytes [], rfl, fun htopic => ?_⟩
    refine bind_eq (content_cut htopic _) ?_
    rw [if_pos rfl, kept_self, kept_self]
    rfl
  | some address =>
    obtain ⟨key, hkey⟩ := h address rfl
    have hlength : key ≠ [] := by
      rintro rfl
      cases hkey
    refine ⟨Topic.ofBytes key, ofAddress_of_ofKey hkey,
      fun {_ index count} htopic => ?_⟩
    refine bind_eq (content_cut htopic _) ?_
    rw [if_neg hlength]
    rcases Nat.lt_or_ge index count with hcount | hcount
    · rw [kept_of_lt hcount, kept_of_lt hcount]
      exact bind_eq (decodeAddress_of_ofKey hkey _) rfl
    · rw [kept_of_le hcount, kept_of_le hcount]
      rfl

end Topics

end MarketReplay
