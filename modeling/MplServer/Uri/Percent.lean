import MplServer.Text.Utf8

/-!
Percent encoding: bytes that may not stand for themselves are written as two hexadecimal digits.
-/

namespace MplServer.Uri

/-- Bytes outside printable ASCII are always encoded. -/
def inControls (byte : UInt8) : Bool :=
  byte < 0x20 || 0x7F ≤ byte

def isOneOf (characters : String) (byte : UInt8) : Bool :=
  byte < 0x80 && characters.toList.contains (Char.ofNat byte.toNat)

def inFragment (byte : UInt8) : Bool :=
  inControls byte || isOneOf " \"<>`" byte

/-- Encoded in a query; the schemes of the web encode the apostrophe too. -/
def inQuery (special : Bool) (byte : UInt8) : Bool :=
  inControls byte || isOneOf " \"#<>" byte || (special && isOneOf "'" byte)

def inPath (byte : UInt8) : Bool :=
  inFragment byte || isOneOf "#?\x7b\x7d" byte

/-- Encoded in the name and password of a user. -/
def inUser (byte : UInt8) : Bool :=
  inPath byte || isOneOf "/:;=@[\\]^|" byte

/-- Encoded in a file name that becomes one segment of a path. -/
def inSegment (byte : UInt8) : Bool :=
  inPath byte || isOneOf "/%\\" byte

def upperHex (n : Nat) : Char :=
  Char.ofNat (if n < 10 then 48 + n else 55 + n)

def encodeByte (set : UInt8 → Bool) (byte : UInt8) : List Char :=
  if set byte then ['%', upperHex (byte.toNat / 16), upperHex (byte.toNat % 16)]
  else [Char.ofNat byte.toNat]

def encode (set : UInt8 → Bool) (text : String) : String :=
  String.ofList ((Text.encode text).flatMap (encodeByte set))

def hexByte? (byte : UInt8) : Option UInt8 :=
  if 48 ≤ byte ∧ byte ≤ 57 then some (byte - 48)
  else if 65 ≤ byte ∧ byte ≤ 70 then some (byte - 55)
  else if 97 ≤ byte ∧ byte ≤ 102 then some (byte - 87)
  else none

/-- The byte two hexadecimal digits stand for. -/
def pairValue? : List UInt8 → Option UInt8
  | high :: low :: _ => do return (← hexByte? high) * 16 + (← hexByte? low)
  | _ => none

/-- `decodeBytes` with the first `skip` bytes left out, which belong to a percent sign before. -/
def decodeBytesFrom : Nat → List UInt8 → List UInt8
  | _, [] => []
  | skip + 1, _ :: rest => decodeBytesFrom skip rest
  | 0, byte :: rest =>
      match if byte = 37 then pairValue? rest else none with
      | some value => value :: decodeBytesFrom 2 rest
      | none => byte :: decodeBytesFrom 0 rest

/-- The bytes with every percent sign and the two digits behind it replaced by the byte they stand
for. A percent sign without them stands for itself. -/
def decodeBytes (bytes : List UInt8) : List UInt8 :=
  decodeBytesFrom 0 bytes

end MplServer.Uri
