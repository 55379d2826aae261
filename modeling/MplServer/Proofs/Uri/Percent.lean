import MplServer.Proofs.Text.Encoding
import MplServer.Uri.Percent

/-!
# Percent encoding

What is encoded for a segment can be told apart again: no byte is written as the beginning of what
is written for another, and no slash is written. Bytes without a percent sign decode to themselves.
-/

namespace MplServer

namespace Uri

theorem toNat_ofNat_of_small {n : Nat} (small : n < 128) : (Char.ofNat n).toNat = n := by
  have valid : n.isValidChar := Or.inl (by omega)
  rw [Char.ofNat, dif_pos valid]
  rfl

theorem toNat_upperHex {n : Nat} (digit : n < 16) :
    (upperHex n).toNat = if n < 10 then 48 + n else 55 + n := by
  unfold upperHex
  apply toNat_ofNat_of_small
  split <;> omega

theorem upperHex_injective
    {left right : Nat} (leftDigit : left < 16) (rightDigit : right < 16)
    (same : upperHex left = upperHex right) : left = right := by
  have number := congrArg Char.toNat same
  rw [toNat_upperHex leftDigit, toNat_upperHex rightDigit] at number
  split at number <;> split at number <;> omega

theorem upperHex_ne_slash {n : Nat} (digit : n < 16) : upperHex n ≠ '/' := by
  intro slash
  have number := congrArg Char.toNat slash
  rw [toNat_upperHex digit] at number
  have code : '/'.toNat = 47 := rfl
  split at number <;> omega

theorem isOneOf_iff (characters : String) (byte : UInt8) :
    isOneOf characters byte = true ↔
      byte < 0x80 ∧ Char.ofNat byte.toNat ∈ characters.toList := by
  simp [isOneOf]

/-- A byte that stands for itself in a segment is one character, and neither a percent sign nor a
slash. -/
theorem of_not_inSegment
    {byte : UInt8} (plain : inSegment byte = false) :
    byte.toNat < 128 ∧ Char.ofNat byte.toNat ≠ '%' ∧ Char.ofNat byte.toNat ≠ '/' := by
  simp only [inSegment, inPath, inFragment, inControls, Bool.or_eq_false_iff,
    decide_eq_false_iff_not] at plain
  obtain ⟨⟨⟨⟨_, printable⟩, _⟩, _⟩, unreserved⟩ := plain
  have small : byte < 0x80 := by
    rw [UInt8.lt_iff_toNat_lt]
    rw [UInt8.le_iff_toNat_le] at printable
    simp at printable ⊢
    omega
  have apart : ∀ c ∈ "/%\\".toList, Char.ofNat byte.toNat ≠ c := by
    rintro c member rfl
    rw [(isOneOf_iff _ byte).mpr ⟨small, member⟩] at unreserved
    cases unreserved
  exact ⟨UInt8.lt_iff_toNat_lt.mp small, apart '%' (by decide), apart '/' (by decide)⟩

theorem slash_not_mem_encodeByte (byte : UInt8) : '/' ∉ encodeByte inSegment byte := by
  have bound := byte.toNat_lt
  unfold encodeByte
  cases encoded : inSegment byte with
  | true =>
      have high := @upperHex_ne_slash (byte.toNat / 16) (by omega)
      have low := @upperHex_ne_slash (byte.toNat % 16) (by omega)
      simp [high.symm, low.symm]
  | false =>
      have plain := of_not_inSegment encoded
      simp [plain.2.2.symm]

/-- No byte is written as the beginning of what is written for another. -/
theorem encodeByte_append_inj
    {left right : UInt8} {leftRest rightRest : List Char}
    (same :
      encodeByte inSegment left ++ leftRest = encodeByte inSegment right ++ rightRest) :
    left = right ∧ leftRest = rightRest := by
  have leftBound := left.toNat_lt
  have rightBound := right.toNat_lt
  unfold encodeByte at same
  cases leftEncoded : inSegment left with
  | true =>
      cases rightEncoded : inSegment right with
      | true =>
          simp only [leftEncoded, rightEncoded, if_true, List.cons_append, List.nil_append,
            List.cons.injEq, true_and] at same
          obtain ⟨sameHigh, sameLow, sameRest⟩ := same
          have high := upperHex_injective (by omega) (by omega) sameHigh
          have low := upperHex_injective (by omega) (by omega) sameLow
          refine ⟨UInt8.toNat_inj.mp ?_, sameRest⟩
          omega
      | false =>
          simp only [leftEncoded, rightEncoded, if_true, List.cons_append, List.nil_append] at same
          exact absurd (List.cons.inj same).1.symm (of_not_inSegment rightEncoded).2.1
  | false =>
      cases rightEncoded : inSegment right with
      | true =>
          simp only [leftEncoded, rightEncoded, if_true, List.cons_append, List.nil_append] at same
          exact absurd (List.cons.inj same).1 (of_not_inSegment leftEncoded).2.1
      | false =>
          simp only [leftEncoded, rightEncoded] at same
          have number := congrArg Char.toNat (List.cons.inj same).1
          rw [toNat_ofNat_of_small (of_not_inSegment leftEncoded).1,
            toNat_ofNat_of_small (of_not_inSegment rightEncoded).1] at number
          exact ⟨UInt8.toNat_inj.mp number, (List.cons.inj same).2⟩

theorem encodeByte_ne_nil (set : UInt8 → Bool) (byte : UInt8) : encodeByte set byte ≠ [] := by
  unfold encodeByte
  split <;> simp

theorem flatMap_encodeByte_injective
    {left right : List UInt8}
    (same :
      left.flatMap (encodeByte inSegment) = right.flatMap (encodeByte inSegment)) :
    left = right := by
  induction left generalizing right with
  | nil =>
      cases right with
      | nil => rfl
      | cons byte rest => simp [encodeByte_ne_nil] at same
  | cons byte rest inductionHypothesis =>
      cases right with
      | nil => simp [encodeByte_ne_nil] at same
      | cons other others =>
          rw [List.flatMap_cons, List.flatMap_cons] at same
          obtain ⟨rfl, sameRest⟩ := encodeByte_append_inj same
          rw [inductionHypothesis sameRest]

theorem encode_inSegment_injective
    {left right : String} (same : encode inSegment left = encode inSegment right) :
    left = right := by
  apply Text.encode_injective
  apply flatMap_encodeByte_injective
  exact String.ofList_injective same

theorem slash_not_mem_encode (text : String) : '/' ∉ (encode inSegment text).toList := by
  rw [encode, String.toList_ofList, List.mem_flatMap]
  rintro ⟨byte, _, slash⟩
  exact slash_not_mem_encodeByte byte slash

theorem encode_ne_empty {text : String} (nonempty : text ≠ "") : encode inSegment text ≠ "" := by
  intro empty
  apply nonempty
  apply encode_inSegment_injective
  rw [empty]
  rfl

/-! ## Decoding -/

theorem decodeBytes_of_plain
    {bytes : List UInt8} (plain : ∀ byte ∈ bytes, byte ≠ 37) : decodeBytes bytes = bytes := by
  unfold decodeBytes
  induction bytes with
  | nil => rfl
  | cons byte rest inductionHypothesis =>
      rw [List.forall_mem_cons] at plain
      rw [decodeBytesFrom, if_neg plain.1]
      dsimp only
      rw [inductionHypothesis plain.2]

end Uri

end MplServer
