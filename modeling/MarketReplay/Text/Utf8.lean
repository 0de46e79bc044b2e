/-
Text as UTF-8 bytes. Reading refuses anything that is not the encoding of a
sequence of scalar values: overlong forms, halves of surrogate pairs, values
past the last code point and cut-off sequences.
-/

namespace MarketReplay.Utf8

/-- The bytes of a text. -/
def encode (text : String) : List UInt8 :=
  text.toUTF8.data.toList

/-- The text that a byte string encodes. -/
def decode? (bytes : List UInt8) : Option String :=
  String.fromUTF8? bytes.toByteArray

/-- What a text is written as reads back as that text. -/
@[simp] theorem decode?_encode (text : String) : decode? (encode text) = some text := by
  have hb : (encode text).toByteArray = text.toUTF8 := by
    apply ByteArray.ext
    simp [encode]
  unfold decode? String.fromUTF8?
  rw [hb]
  split
  · rfl
  · rename_i h
    exact absurd text.isValidUTF8 h

end MarketReplay.Utf8
