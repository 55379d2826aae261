import MplServer.Json.Basic

/-!
The written form of a JSON value: no blanks, members in their order.
-/

namespace MplServer.Json

/-- The hexadecimal digit for a number below sixteen. -/
def hexDigit (n : Nat) : Char :=
  Char.ofNat (if n < 10 then 48 + n else 87 + n)

/-- A character inside quotes. Quotes and backslashes are marked, control characters are written by
their code. -/
def quotedChar (c : Char) : List Char :=
  if c = '"' then ['\\', '"']
  else if c = '\\' then ['\\', '\\']
  else if c.toNat < 32 then ['\\', 'u', '0', '0', hexDigit (c.toNat / 16), hexDigit (c.toNat % 16)]
  else [c]

def quoted (text : List Char) : List Char :=
  '"' :: text.flatMap quotedChar ++ ['"']

mutual

def written : Json → List Char
  | .null => ['n', 'u', 'l', 'l']
  | .boolean true => ['t', 'r', 'u', 'e']
  | .boolean false => ['f', 'a', 'l', 's', 'e']
  | .integer n => integerText n
  | .float x => if x.isFinite then x.text.toList else ['n', 'u', 'l', 'l']
  | .string s => quoted s.toList
  | .array [] => ['[', ']']
  | .array (item :: rest) => '[' :: item.written ++ writtenItems rest
  | .object [] => ['{', '}']
  | .object ((name, value) :: rest) =>
      '{' :: quoted name.toList ++ ':' :: value.written ++ writtenMembers rest

/-- The further items of an array, each after a comma, and the closing bracket. -/
def writtenItems : List Json → List Char
  | [] => [']']
  | item :: rest => ',' :: item.written ++ writtenItems rest

/-- The further members of an object, each after a comma, and the closing brace. -/
def writtenMembers : List (String × Json) → List Char
  | [] => ['}']
  | (name, value) :: rest =>
      ',' :: quoted name.toList ++ ':' :: value.written ++ writtenMembers rest

end

def render (value : Json) : String :=
  String.ofList value.written

end MplServer.Json
