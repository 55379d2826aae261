import Mathlib.Data.List.Basic
import MplServer.FileSystem.Basic
import MplServer.Text.Utf8

/-!
# Texts as bytes

A text is read back from the bytes it is encoded as. A character of one byte is the byte with its
number.
-/

namespace MplServer

theorem toByteArray_encode (text : String) :
    (⟨(Text.encode text).toArray⟩ : ByteArray) = text.toByteArray := by
  rw [← String.utf8Encode_toList, List.utf8Encode]
  ext1
  simp [Text.encode]

theorem textOf?_encode (text : String) :
    FileSystem.textOf? (Text.encode text) = some text := by
  unfold FileSystem.textOf?
  rw [toByteArray_encode, String.fromUTF8?, dif_pos text.isValidUTF8]
  rfl

/-- The text that bytes are read as is the one they encode. -/
theorem textOf?_eq_some_iff (bytes : Bytes) (text : String) :
    FileSystem.textOf? bytes = some text ↔ bytes = Text.encode text := by
  constructor
  · intro read
    unfold FileSystem.textOf? at read
    rw [String.fromUTF8?] at read
    split at read
    · next valid =>
      have sameBytes : text.toByteArray = ⟨bytes.toArray⟩ := by
        rw [← Option.some.inj read]
        rfl
      have encoded := toByteArray_encode text
      rw [sameBytes, ByteArray.mk.injEq] at encoded
      exact (List.toArray_inj encoded).symm
    · cases read
  · rintro rfl
    exact textOf?_encode text

namespace Text

theorem encode_injective
    {left right : String} (same : encode left = encode right) : left = right := by
  have leftText := textOf?_encode left
  rw [same, textOf?_encode right, Option.some.injEq] at leftText
  exact leftText.symm

theorem decodeFrom_of_plain
    {bytes : List UInt8} (plain : ∀ byte ∈ bytes, byte < 0x80) :
    decodeFrom 0 bytes = bytes.map fun byte => Char.ofNat byte.toNat := by
  induction bytes with
  | nil => rfl
  | cons byte rest inductionHypothesis =>
      rw [List.forall_mem_cons] at plain
      have alone : followers? byte = some (0, 0x80, 0xBF) := if_pos plain.1
      rw [decodeFrom, alone]
      simp only [continued, if_true, List.take_zero]
      rw [inductionHypothesis plain.2]
      rfl

theorem utf8EncodeChar_of_small
    {c : Char} (small : c.toNat < 128) : String.utf8EncodeChar c = [c.toNat.toUInt8] := by
  have oneByte : c.val.toNat ≤ 127 := Nat.le_of_lt_succ small
  simp only [String.utf8EncodeChar, oneByte]
  rfl

theorem encode_of_small
    {text : String} (small : ∀ c ∈ text.toList, c.toNat < 128) :
    encode text = text.toList.map fun c => c.toNat.toUInt8 := by
  rw [encode, List.flatMap_congr fun c member => utf8EncodeChar_of_small (small c member),
    List.map_eq_flatMap]

theorem toNat_toUInt8_of_small
    {c : Char} (small : c.toNat < 128) : c.toNat.toUInt8.toNat = c.toNat := by
  rw [UInt8.toNat_ofNat']
  omega

end Text

end MplServer
