import MplServer.Json.Basic
import MplServer.Text.Quoted

/-!
Why a text is refused: it is not JSON, or its value does not have the shape that is asked for.
-/

namespace MplServer.Json

/-- What is wrong with the writing of a text that is not JSON. -/
inductive Flaw where
  | endInValue
  | endInList
  | endInObject
  | endInString
  | expectedValue
  | expectedLiteral
  | expectedColon
  | expectedListEnd
  | expectedObjectEnd
  | trailingComma
  | trailingCharacters
  | keyNotString
  | invalidNumber
  | numberOutOfRange
  | invalidEscape
  | controlCharacter
  | unpairedEscape
  | loneSurrogate
  | tooDeep
deriving DecidableEq, Repr

def Flaw.message : Flaw → String
  | .endInValue => "EOF while parsing a value"
  | .endInList => "EOF while parsing a list"
  | .endInObject => "EOF while parsing an object"
  | .endInString => "EOF while parsing a string"
  | .expectedValue => "expected value"
  | .expectedLiteral => "expected ident"
  | .expectedColon => "expected `:`"
  | .expectedListEnd => "expected `,` or `]`"
  | .expectedObjectEnd => "expected `,` or `\x7d`"
  | .trailingComma => "trailing comma"
  | .trailingCharacters => "trailing characters"
  | .keyNotString => "key must be a string"
  | .invalidNumber => "invalid number"
  | .numberOutOfRange => "number out of range"
  | .invalidEscape => "invalid escape"
  | .controlCharacter => "control character (\\u0000-\\u001F) found while parsing a string"
  | .unpairedEscape => "unexpected end of hex escape"
  | .loneSurrogate => "lone leading surrogate in hex escape"
  | .tooDeep => "recursion limit exceeded"

/-- The shape a value is asked to have. -/
inductive Shape where
  | string
  | boolean
  | sequence
  | map
  | configuration
  | metadata
deriving DecidableEq, Repr

def Shape.text : Shape → String
  | .string => "a string"
  | .boolean => "a boolean"
  | .sequence => "a sequence"
  | .map => "a map"
  | .configuration => "struct RawConfig"
  | .metadata => "struct MetaInfo"

/-- How a value that was not expected is described. -/
def described : Json → String
  | .null => "null"
  | .boolean value => "boolean `" ++ (if value then "true" else "false") ++ "`"
  | .integer value => "integer `" ++ String.ofList (integerText value) ++ "`"
  | .float value => "floating point `" ++ value.text ++ "`"
  | .string value => "string " ++ Text.quoteVisibly value
  | .array _ => "sequence"
  | .object _ => "map"

inductive Cause where
  | flaw (kind : Flaw)
  | mismatch (found : Json) (wanted : Shape)
  /-- A list that stands for a structure with a fixed number of fields has too few items. -/
  | tooFew (count : Nat) (wanted : Shape) (fields : Nat)
  /-- A list that stands for a structure has too many items. -/
  | tooMany (count : Nat)
  | repeated (field : String)
deriving Repr

def Cause.message : Cause → String
  | .flaw kind => kind.message
  | .mismatch found wanted => "invalid type: " ++ found.described ++ ", expected " ++ wanted.text
  | .tooFew count wanted fields =>
      "invalid length " ++ toString count ++ ", expected " ++ wanted.text ++ " with " ++
        toString fields ++ " elements"
  | .tooMany count =>
      "invalid length " ++ toString count ++ ", expected fewer elements in array"
  | .repeated field => "duplicate field `" ++ field ++ "`"

/-- A cause with the place where it was found: the text that was still unread, and how many bytes
of it belong to the fault. -/
structure Fault where
  cause : Cause
  rest : List Char
  ahead : Nat
deriving Repr

def byteCount (text : List Char) : Nat :=
  (String.ofList text).utf8ByteSize

/-- The number of bytes read when the fault was found. -/
def Fault.offset (text : List Char) (fault : Fault) : Nat :=
  min (byteCount text) (byteCount text - byteCount fault.rest + fault.ahead)

/-- The line and column a byte offset lies on: lines are counted from one, a column is the number
of bytes between the last line feed and the offset. -/
def position (text : List Char) (offset : Nat) : Nat × Nat :=
  let bytes := (text.flatMap String.utf8EncodeChar).take offset
  (bytes.count 10 + 1, (bytes.reverse.takeWhile (· ≠ 10)).length)

/-- The wording of a fault, with its place in the text. -/
def Fault.message (text : List Char) (fault : Fault) : String :=
  let (line, column) := position text (fault.offset text)
  fault.cause.message ++ " at line " ++ toString line ++ " column " ++ toString column

end MplServer.Json
