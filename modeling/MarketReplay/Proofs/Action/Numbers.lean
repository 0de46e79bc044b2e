/-
Numbers in topics are read exactly, or not at all.

A reader measures the significant bytes of a topic, and that is to measure the
number (`number_eq`): one that is small enough is read as it is, and one that
is not is refused under the count of its significant bytes. Zero bytes in front
are never counted. The number is the one that a register of 128 bits ends up
with, also when the register is then cut to 64 bits (`number_eq_inRegister`,
`number_eq_inWord`): at the widths that are read nothing is shifted or cut off.

A written number is the shortest of the topics that are read as it.
-/
import MarketReplay.Proofs.Action.Topics
import MarketReplay.Proofs.Number.Width

namespace MarketReplay.Topics

open BigEndian

variable {topics : Topics} {index width : Nat} {bytes : List UInt8}

-- ============================================================== the number

/-- A number of some width is read just if it is one of that many bytes. -/
theorem number_eq (index width : Nat) (bytes : List UInt8) :
    number index width bytes
      = if toNat bytes < twoTo (8 * width) then .ok (toNat bytes)
        else .error (.tooWide index (significant bytes).length width) := by
  unfold number
  by_cases h : toNat bytes < twoTo (8 * width)
  · rw [if_pos h]
    exact if_neg (Nat.not_lt.2 (length_significant_le_iff.2 h))
  · rw [if_neg h]
    exact if_pos (Nat.not_le.1 (mt length_significant_le_iff.1 h))

/-- Zero bytes in front are not counted, whether a number is read or refused.
-/
theorem number_zeros (index width zeros : Nat) (bytes : List UInt8) :
    number index width (List.replicate zeros 0 ++ bytes) = number index width bytes := by
  unfold number
  rw [significant_zeros, toNat_zeros]

/-- A number read in a register, unless it needs more than `width` bytes. -/
def inRegister (index width : Nat) (bytes : List UInt8) : Read (BitVec 128) :=
  let kept := significant bytes
  if width < kept.length then .error (.tooWide index kept.length width)
  else .ok (register kept)

/-- A number of up to sixteen bytes is what the register of 128 bits ends up
with. -/
theorem number_eq_inRegister (hwidth : width ≤ 16) :
    number index width bytes = (inRegister index width bytes).map BitVec.toNat := by
  unfold number inRegister
  by_cases h : width < (significant bytes).length
  · rw [if_pos h, if_pos h]
    rfl
  · rw [if_neg h, if_neg h, Except.map, toNat_register_of_le (by omega)]

/-- A number of up to eight bytes is not changed when the register is cut to 64
bits. -/
theorem number_eq_inWord (hwidth : width ≤ 8) :
    number index width bytes
      = (inRegister index width bytes).map fun value => (value.setWidth 64).toNat := by
  unfold number inRegister
  by_cases h : width < (significant bytes).length
  · rw [if_pos h, if_pos h]
    rfl
  · rw [if_neg h, if_neg h, Except.map, toNat_setWidth_register_of_le (by omega)]

-- ============================================================= the readers

section

variable (h : topics.texts[index]? = some (Topic.ofBytes bytes))

include h

/-- The bytes of a topic are those that it was made of. -/
theorem raw_ofBytes : topics.raw index = .ok (some bytes) := by
  unfold raw
  rw [h, Topic.ofBytes]
  dsimp only
  rw [Base64.decode?_encode]

/-- A required number is the number of the topic's bytes. -/
theorem sized_ofBytes (width : Nat) :
    topics.sized index width = number index width bytes := by
  have hbytes : topics.bytes index = .ok bytes := by
    unfold Topics.bytes
    exact bind_eq (raw_ofBytes h) rfl
  exact bind_eq hbytes rfl

/-- A time is the number of the topic's bytes, or the last timestamp where that
is less. -/
theorem timestampOrZero_ofBytes :
    topics.timestampOrZero index
      = (number index 8 bytes).map fun value => ((min value lastTimestamp : Nat) : Int) := by
  have hword : topics.wordOrZero index = number index 8 bytes :=
    bind_eq (raw_ofBytes h) rfl
  unfold timestampOrZero
  rw [hword]
  rfl

end

/-- What the readers of numbers have to say of a topic that holds some bytes:
the value, if it is small enough. -/
structure ReadsNumber (topics : Topics) (index : Nat) (bytes : List UInt8) : Prop where
  word : topics.word index
    = if toNat bytes < twoTo 64 then .ok (toNat bytes)
      else .error (.tooWide index (bytes.dropWhile (· == 0)).length 8)
  amount : topics.amount index
    = if toNat bytes < twoTo 128 then .ok (toNat bytes)
      else .error (.tooWide index (bytes.dropWhile (· == 0)).length 16)
  timestamp : topics.timestampOrZero index
    = if toNat bytes < twoTo 64 then .ok (min (toNat bytes) (twoTo 63 - 1) : Nat)
      else .error (.tooWide index (bytes.dropWhile (· == 0)).length 8)

/-- A topic of bytes is read as the number of these bytes, at every width and
by every reader. -/
theorem readsNumber (h : topics.texts[index]? = some (Topic.ofBytes bytes)) :
    topics.ReadsNumber index bytes where
  word := (sized_ofBytes h 8).trans (number_eq index 8 bytes)
  amount := (sized_ofBytes h 16).trans (number_eq index 16 bytes)
  timestamp := by
    rw [timestampOrZero_ofBytes h, number_eq]
    change Except.map _ (if toNat bytes < twoTo 64 then _ else _) = _
    split <;> rfl

-- ============================================================ written numbers

/-- A written number is the topic of the shortest byte string of its value. -/
theorem exists_shortest (value : Nat) :
    ∃ shortest, Topic.ofNat value = Topic.ofBytes shortest ∧ toNat shortest = value
      ∧ ∀ other, toNat other = value → other ≠ shortest →
        shortest.length < other.length :=
  ⟨ofNat value, rfl, toNat_ofNat value, fun _ hvalue hother => length_ofNat_lt hvalue hother⟩

/-- The topics of a log around one of them. -/
def around (before behind : List String) (topic : String) : Topics :=
  ⟨before ++ topic :: behind⟩

theorem getElem?_around (before behind : List String) (topic : String) :
    (around before behind topic).texts[before.length]? = some topic := by
  simp [around]

/-- A number in a topic is read as what it is if it is small enough, and else
refused under the count of its significant bytes; zero bytes in front change
nothing, and the registers that it is read in lose nothing. A number that was
written is read back, and is written in as few bytes as it can be. -/
theorem numbers_exact (before behind : List String) (bytes : List UInt8) :
    let index := before.length
    let holding := fun bytes => around before behind (Topic.ofBytes bytes)
    (holding bytes).ReadsNumber index bytes
      ∧ (∀ zeros,
          let padded := holding (List.replicate zeros 0 ++ bytes)
          padded.word index = (holding bytes).word index
            ∧ padded.amount index = (holding bytes).amount index
            ∧ padded.timestampOrZero index = (holding bytes).timestampOrZero index)
      ∧ (holding bytes).word index
        = (inRegister index 8 bytes).map (fun value => (value.setWidth 64).toNat)
      ∧ (holding bytes).amount index = (inRegister index 16 bytes).map BitVec.toNat
      ∧ ∀ value, IsAmount value →
          (around before behind (Topic.ofNat value)).amount index = .ok value
            ∧ (IsWord value → (around before behind (Topic.ofNat value)).word index = .ok value)
            ∧ ∃ shortest, Topic.ofNat value = Topic.ofBytes shortest
              ∧ toNat shortest = value
              ∧ ∀ other, toNat other = value → other ≠ shortest →
                shortest.length < other.length := by
  intro index holding
  have hholds : ∀ bytes, (holding bytes).texts[index]? = some (Topic.ofBytes bytes) :=
    fun bytes => getElem?_around before behind (Topic.ofBytes bytes)
  refine ⟨readsNumber (hholds bytes), fun zeros => ⟨?_, ?_, ?_⟩, ?_, ?_,
    fun value hvalue => ?_⟩
  · exact (sized_ofBytes (hholds _) 8).trans
      ((number_zeros index 8 zeros bytes).trans (sized_ofBytes (hholds bytes) 8).symm)
  · exact (sized_ofBytes (hholds _) 16).trans
      ((number_zeros index 16 zeros bytes).trans (sized_ofBytes (hholds bytes) 16).symm)
  · rw [timestampOrZero_ofBytes (hholds _), timestampOrZero_ofBytes (hholds bytes), number_zeros]
  · exact (sized_ofBytes (hholds bytes) 8).trans (number_eq_inWord (Nat.le_refl 8))
  · exact (sized_ofBytes (hholds bytes) 16).trans (number_eq_inRegister (Nat.le_refl 16))
  · have hreads := readsNumber (hholds (ofNat value))
    have hamount := hreads.amount
    have hword := hreads.word
    rw [toNat_ofNat] at hamount hword
    exact ⟨hamount.trans (if_pos hvalue), fun hsmall => hword.trans (if_pos hsmall),
      exists_shortest value⟩

end MarketReplay.Topics
