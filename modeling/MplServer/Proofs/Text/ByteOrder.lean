import Mathlib.Algebra.Group.Nat.Defs
import MplServer.Proofs.Text.Encoding

/-!
# The order of encoded texts

Texts are ordered by their characters, and their bytes have the same order: of two characters the
one with the smaller number has the smaller first byte, or the same first byte and then smaller
bytes behind it.
-/

namespace MplServer.Text

/-- The last bytes of a character of several bytes, six bits of its number in each. -/
def continuation : Nat → Nat → List UInt8
  | 0, _ => []
  | count + 1, number =>
      UInt8.ofNat (number / 64 ^ count % 64 + 128) :: continuation count number

/-- How many bytes of a character follow the first. -/
def continuationLength (number : Nat) : Nat :=
  if number ≤ 127 then 0 else if number ≤ 2047 then 1 else if number ≤ 65535 then 2 else 3

/-- The first byte of a character. -/
def leadNumber (number : Nat) : Nat :=
  if number ≤ 127 then number
  else if number ≤ 2047 then number / 64 % 32 + 192
  else if number ≤ 65535 then number / 4096 % 16 + 224
  else number / 262144 % 8 + 240

theorem utf8EncodeChar_eq_lead_cons (c : Char) :
    String.utf8EncodeChar c =
      UInt8.ofNat (leadNumber c.val.toNat) ::
        continuation (continuationLength c.val.toNat) c.val.toNat := by
  unfold String.utf8EncodeChar leadNumber continuationLength
  generalize c.val.toNat = number
  dsimp only
  split
  · rfl
  split
  · simp [continuation]
  split
  · simp [continuation]
  · simp [continuation]

theorem ofNat_lt_ofNat
    {left right : Nat} (smaller : left < right) (bounded : right < 256) :
    UInt8.ofNat left < UInt8.ofNat right := by
  rw [UInt8.lt_iff_toNat_lt, UInt8.toNat_ofNat_of_lt' (Nat.lt_trans smaller bounded),
    UInt8.toNat_ofNat_of_lt' bounded]
  exact smaller

/-- Where the bits in front are the same, the continuations are in the order of the numbers. -/
theorem continuation_append_lt
    {left right : Nat} (smaller : left < right) (count : Nat)
    (sameFront : left / 64 ^ count = right / 64 ^ count) (behind later : List UInt8) :
    continuation count left ++ behind < continuation count right ++ later := by
  induction count with
  | zero =>
      rw [Nat.pow_zero, Nat.div_one, Nat.div_one] at sameFront
      omega
  | succ fewer inductionHypothesis =>
      rw [continuation, continuation, List.cons_append, List.cons_append,
        List.cons_lt_cons_iff]
      by_cases same : left / 64 ^ fewer = right / 64 ^ fewer
      · exact Or.inr ⟨by rw [same], inductionHypothesis same⟩
      · have ordered : left / 64 ^ fewer ≤ right / 64 ^ fewer :=
          Nat.div_le_div_right (Nat.le_of_lt smaller)
        rw [Nat.pow_succ, ← Nat.div_div_eq_div_mul, ← Nat.div_div_eq_div_mul] at sameFront
        exact Or.inl (ofNat_lt_ofNat (by omega) (by omega))

/-- Of two numbers the smaller has the smaller first byte, or they agree up to the bits that are in
the bytes behind it. -/
theorem leadNumber_cases
    {left right : Nat} (smaller : left < right) (bounded : right < 0x110000) :
    leadNumber right < 256 ∧
      (leadNumber left < leadNumber right ∨
        leadNumber left = leadNumber right ∧
          continuationLength left = continuationLength right ∧
            left / 64 ^ continuationLength right = right / 64 ^ continuationLength right) := by
  unfold leadNumber continuationLength
  split_ifs <;> omega

theorem val_toNat_lt (c : Char) : c.val.toNat < 0x110000 := by
  rcases c.valid with low | ⟨_, high⟩
  · exact Nat.lt_trans low (by decide)
  · exact high

/-- The bytes of characters are in the order of the characters, whatever comes behind them. -/
theorem utf8EncodeChar_append_lt
    {c d : Char} (smaller : c < d) (behind later : List UInt8) :
    String.utf8EncodeChar c ++ behind < String.utf8EncodeChar d ++ later := by
  have numbers : c.val.toNat < d.val.toNat := smaller
  rw [utf8EncodeChar_eq_lead_cons, utf8EncodeChar_eq_lead_cons, List.cons_append,
    List.cons_append, List.cons_lt_cons_iff]
  obtain ⟨bounded, first | ⟨sameLead, sameLength, sameFront⟩⟩ :=
    leadNumber_cases numbers (val_toNat_lt d)
  · exact Or.inl (ofNat_lt_ofNat first bounded)
  · rw [sameLead, sameLength]
    exact Or.inr ⟨rfl, continuation_append_lt numbers _ sameFront behind later⟩

theorem flatMap_utf8EncodeChar_lt
    {left right : List Char} (smaller : left < right) :
    left.flatMap String.utf8EncodeChar < right.flatMap String.utf8EncodeChar := by
  induction smaller with
  | @nil c others =>
      rw [List.flatMap_nil, List.flatMap_cons, utf8EncodeChar_eq_lead_cons]
      exact List.nil_lt_cons _ _
  | @cons c others more inOthers inductionHypothesis =>
      rw [List.flatMap_cons, List.flatMap_cons]
      exact List.append_left_lt inductionHypothesis
  | @rel c others d more earlier =>
      rw [List.flatMap_cons, List.flatMap_cons]
      exact utf8EncodeChar_append_lt earlier _ _

/-- Texts in their order have their bytes in order. -/
theorem encode_lt_encode {left right : String} (smaller : left < right) :
    encode left < encode right :=
  flatMap_utf8EncodeChar_lt smaller

end MplServer.Text
