/-!
Reading bytes as UTF-8 when some of them may not be.
-/

namespace MplServer.Text

/-- The bytes that may follow the first byte of a character: how many there are, and the range of
the first of them. None if no character begins with the byte. -/
def followers? (first : UInt8) : Option (Nat × UInt8 × UInt8) :=
  if first < 0x80 then some (0, 0x80, 0xBF)
  else if 0xC2 ≤ first ∧ first ≤ 0xDF then some (1, 0x80, 0xBF)
  else if first = 0xE0 then some (2, 0xA0, 0xBF)
  else if first = 0xED then some (2, 0x80, 0x9F)
  else if 0xE1 ≤ first ∧ first ≤ 0xEF then some (2, 0x80, 0xBF)
  else if first = 0xF0 then some (3, 0x90, 0xBF)
  else if 0xF1 ≤ first ∧ first ≤ 0xF3 then some (3, 0x80, 0xBF)
  else if first = 0xF4 then some (3, 0x80, 0x8F)
  else none

/-- How many of the bytes continue a character of which `count` bytes are missing. -/
def continued (low high : UInt8) : Nat → List UInt8 → Nat
  | 0, _ => 0
  | _, [] => 0
  | count + 1, byte :: rest =>
      if low ≤ byte ∧ byte ≤ high then continued 0x80 0xBF count rest + 1 else 0

/-- The character a complete byte sequence stands for. -/
def assembled (first : UInt8) (rest : List UInt8) : Char :=
  let lead := match rest.length with
    | 0 => first.toNat
    | 1 => first.toNat % 32
    | 2 => first.toNat % 16
    | _ => first.toNat % 8
  Char.ofNat (rest.foldl (fun code byte => code * 64 + byte.toNat % 64) lead)

/-- The characters of a byte sequence, its first `skip` bytes left out. The start of a character
that is not completed, and a byte that starts none, give the replacement character. -/
def decodeFrom : Nat → List UInt8 → List Char
  | _, [] => []
  | skip + 1, _ :: rest => decodeFrom skip rest
  | 0, byte :: rest =>
      match followers? byte with
      | none => '\uFFFD' :: decodeFrom 0 rest
      | some (count, low, high) =>
          let found := continued low high count rest
          if found = count then assembled byte (rest.take count) :: decodeFrom count rest
          else '\uFFFD' :: decodeFrom found rest

/-- The text a byte sequence encodes, with replacement characters for what encodes nothing. -/
def decodeLossy (bytes : List UInt8) : String :=
  String.ofList (decodeFrom 0 bytes)

def encode (text : String) : List UInt8 :=
  text.toList.flatMap String.utf8EncodeChar

end MplServer.Text
