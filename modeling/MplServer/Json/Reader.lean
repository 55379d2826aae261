import MplServer.Json.Fault

/-!
Reading JSON. A reader takes the characters it needs from the front of a text and hands back the
rest. Values that are passed over are read with less care: numbers need not be in range, escapes
need not form characters, and nesting has no limit.
-/

namespace MplServer.Json

/-- A value and the text behind it. -/
abbrev Reading (α : Type) := Except Fault (α × List Char)

/-- How closely a value is read. -/
inductive Care where
  | full
  | skim
deriving DecidableEq, Repr

/-- A fault at the next character, which belongs to it. -/
def faultAt {α : Type} (flaw : Flaw) (rest : List Char) : Except Fault α :=
  .error ⟨.flaw flaw, rest, 1⟩

/-- A fault before the next character. -/
def faultBefore {α : Type} (flaw : Flaw) (rest : List Char) : Except Fault α :=
  .error ⟨.flaw flaw, rest, 0⟩

def isSpace (c : Char) : Bool :=
  c = ' ' || c = '\t' || c = '\n' || c = '\r'

/-- The text from its first character that is not a space. -/
def skipSpace (text : List Char) : List Char :=
  text.dropWhile isSpace

/-- The rest of a word such as `null` of which the first letter has been read. -/
def literal (value : Json) : List Char → List Char → Reading Json
  | [], rest => .ok (value, rest)
  | _ :: _, [] => faultBefore .endInValue []
  | expected :: more, c :: rest =>
      if c = expected then literal value more rest else faultAt .expectedLiteral (c :: rest)

/-! ## Numbers -/

def digitValue (c : Char) : Nat :=
  c.toNat - 48

/-- The largest whole number that is kept exactly. -/
def maxExact : Nat := Nat.pow 2 64 - 1

/-- Takes digits into a number as long as it stays exact. The result has the number, how many
digits it took, and the text behind them. -/
def absorb (value : Nat) (taken : Nat) : List Char → Nat × Nat × List Char
  | [] => (value, taken, [])
  | c :: rest =>
      if c.isDigit && value * 10 + digitValue c ≤ maxExact then
        absorb (value * 10 + digitValue c) (taken + 1) rest
      else (value, taken, c :: rest)

/-- The sign put to a number that was computed without it. -/
def signed (negative : Bool) (value : Binary64) : Json :=
  .float (if negative then value.neg else value)

/-- `significand · 10 ^ exponent`, rounded in steps: the significand, then each multiplication or
division by a power of ten that is itself a rounded number. -/
def scaled (negative : Bool) (significand : Nat) (exponent : Int) (rest : List Char) :
    Reading Json :=
  let start := Binary64.ofNat significand
  let power := fun n : Nat => Binary64.ofNat (Nat.pow 10 n)
  if exponent < 0 then
    let steps := exponent.natAbs
    if steps ≤ 308 then .ok (signed negative (start.div (power steps)), rest)
    else if steps ≤ 616 then
      .ok (signed negative ((start.div (power 308)).div (power (steps - 308))), rest)
    else .ok (signed negative (Binary64.ofNat 0), rest)
  else if significand = 0 then .ok (signed negative (Binary64.ofNat 0), rest)
  else if 308 < exponent then faultBefore .numberOutOfRange rest
  else
    let product := start.mul (power exponent.toNat)
    if product.isFinite then .ok (signed negative product, rest)
    else faultBefore .numberOutOfRange rest

/-- Takes the digits of an exponent as long as it stays below two to the 31. -/
def absorbExponent (value : Nat) : List Char → Nat × List Char
  | [] => (value, [])
  | c :: rest =>
      if c.isDigit && value * 10 + digitValue c < Nat.pow 2 31 then
        absorbExponent (value * 10 + digitValue c) rest
      else (value, c :: rest)

/-- Whether an exponent has a minus sign, and the text behind its sign. -/
def exponentSign : List Char → Bool × List Char
  | '+' :: rest => (false, rest)
  | '-' :: rest => (true, rest)
  | text => (false, text)

/-- The digits of an exponent, its sign already read. -/
def exponentDigits (negative : Bool) (significand : Nat) (exponent : Int) (down : Bool)
    (digits : List Char) : Reading Json :=
  match digits with
  | [] => faultBefore .endInValue []
  | c :: _ =>
      if !c.isDigit then faultAt .invalidNumber digits
      else
        let (value, rest) := absorbExponent 0 digits
        let total := if down then exponent - value else exponent + value
        match rest with
        | next :: behind =>
            if next.isDigit then
              if significand ≠ 0 && !down then faultBefore .numberOutOfRange behind
              else .ok (signed negative (Binary64.ofNat 0), behind.dropWhile Char.isDigit)
            else scaled negative significand total rest
        | [] => scaled negative significand total rest

/-- The exponent part of a number, its mark already read. -/
def exponentPart (negative : Bool) (significand : Nat) (exponent : Int) (text : List Char) :
    Reading Json :=
  let (down, digits) := exponentSign text
  exponentDigits negative significand exponent down digits

/-- What follows the digits of a number whose value is inexact. -/
def tail (negative : Bool) (significand : Nat) (exponent : Int) (text : List Char) :
    Reading Json :=
  match text with
  | c :: rest =>
      if c = 'e' || c = 'E' then exponentPart negative significand exponent rest
      else scaled negative significand exponent text
  | [] => scaled negative significand exponent []

/-- The digits after the point, which has been read. -/
def fraction (negative : Bool) (significand : Nat) (exponent : Int) (text : List Char) :
    Reading Json :=
  match text with
  | [] => faultAt .endInValue []
  | c :: _ =>
      if !c.isDigit then faultAt .invalidNumber text
      else
        let (value, taken, rest) := absorb significand 0 text
        tail negative value (exponent - taken) (rest.dropWhile Char.isDigit)

/-- What follows the whole part of a number. -/
def afterWhole (negative : Bool) (significand : Nat) (text : List Char) : Reading Json :=
  match text with
  | '.' :: rest => fraction negative significand 0 rest
  | c :: rest =>
      if c = 'e' || c = 'E' then exponentPart negative significand 0 rest
      else .ok (wholeNumber, c :: rest)
  | [] => .ok (wholeNumber, [])
where
  /-- A whole number; those below every exact one, and minus zero, are inexact. -/
  wholeNumber : Json :=
    if !negative then .integer significand
    else if significand = 0 || Nat.pow 2 63 < significand then
      signed true (Binary64.ofNat significand)
    else .integer (-(significand : Int))

/-- A number, its sign already read. -/
def number (negative : Bool) (text : List Char) : Reading Json :=
  match text with
  | [] => faultBefore .endInValue []
  | '0' :: rest =>
      match rest with
      | c :: _ => if c.isDigit then faultAt .invalidNumber rest else afterWhole negative 0 rest
      | [] => afterWhole negative 0 []
  | c :: _ =>
      if !c.isDigit then faultAt .invalidNumber text
      else
        let (value, _, rest) := absorb 0 0 text
        match rest with
        | next :: _ =>
            if next.isDigit then
              let dropped := (rest.takeWhile Char.isDigit).length
              match rest.dropWhile Char.isDigit with
              | '.' :: behind => fraction negative value dropped behind
              | behind => tail negative value dropped behind
            else afterWhole negative value rest
        | [] => afterWhole negative value []

def skimExponent (text : List Char) : Reading Json :=
  match (exponentSign text).2 with
  | c :: rest =>
      if c.isDigit then .ok (.null, rest.dropWhile Char.isDigit)
      else faultAt .invalidNumber (c :: rest)
  | [] => faultBefore .invalidNumber []

def skimTail (text : List Char) : Reading Json :=
  match text with
  | c :: rest => if c = 'e' || c = 'E' then skimExponent rest else .ok (.null, c :: rest)
  | [] => .ok (.null, [])

def skimAfterWhole (text : List Char) : Reading Json :=
  match text with
  | '.' :: digits =>
      match digits with
      | d :: _ =>
          if d.isDigit then skimTail (digits.dropWhile Char.isDigit)
          else faultAt .invalidNumber digits
      | [] => faultAt .invalidNumber []
  | _ => skimTail text

/-- A number that is passed over, its sign already read. -/
def skimNumber (text : List Char) : Reading Json :=
  match text with
  | [] => faultBefore .invalidNumber []
  | '0' :: rest =>
      match rest with
      | c :: _ => if c.isDigit then faultAt .invalidNumber rest else skimAfterWhole rest
      | [] => skimAfterWhole []
  | c :: rest =>
      if !c.isDigit then faultAt .invalidNumber text
      else skimAfterWhole (rest.dropWhile Char.isDigit)

/-! ## Strings -/

def hexValue? (c : Char) : Option Nat :=
  if c.isDigit then some (c.toNat - 48)
  else if 'a' ≤ c ∧ c ≤ 'f' then some (c.toNat - 87)
  else if 'A' ≤ c ∧ c ≤ 'F' then some (c.toNat - 55)
  else none

def hexCode (text : List Char) : Except Fault Nat :=
  match text with
  | a :: b :: c :: d :: _ =>
      match hexValue? a, hexValue? b, hexValue? c, hexValue? d with
      | some a, some b, some c, some d => .ok (((a * 16 + b) * 16 + c) * 16 + d)
      | _, _, _, _ => refused
  | _ => refused
where
  /-- Four bytes are taken before they are looked at. -/
  refused : Except Fault Nat :=
    if byteCount text < 4 then faultBefore .endInString []
    else .error ⟨.flaw .invalidEscape, text, 4⟩

/-- The character of an escape that begins with `u`, which has been read, and the number of
characters that were needed for it. -/
def codeEscape (text : List Char) : Except Fault (Char × Nat) := do
  let code ← hexCode text
  if 0xDC00 ≤ code ∧ code ≤ 0xDFFF then faultBefore .loneSurrogate (text.drop 4)
  else if code < 0xD800 ∨ 0xDBFF < code then return (Char.ofNat code, 4)
  else
    match text.drop 4 with
    | [] => faultBefore .endInString []
    | '\\' :: [] => faultBefore .endInString []
    | '\\' :: 'u' :: more =>
        let second ← hexCode more
        if second < 0xDC00 ∨ 0xDFFF < second then faultBefore .loneSurrogate (more.drop 4)
        else return (Char.ofNat ((code - 0xD800) * 1024 + (second - 0xDC00) + 0x10000), 10)
    | '\\' :: other => faultAt .unpairedEscape other
    | other => faultAt .unpairedEscape other

/-- The character of an escape, its backslash already read, and the number of characters that were
needed for it. -/
def escape (care : Care) (text : List Char) : Except Fault (Char × Nat) :=
  match text with
  | [] => faultBefore .endInString []
  | c :: rest =>
      if c = '"' || c = '\\' || c = '/' then .ok (c, 1)
      else if c = 'b' then .ok ('\x08', 1)
      else if c = 'f' then .ok ('\x0c', 1)
      else if c = 'n' then .ok ('\n', 1)
      else if c = 'r' then .ok ('\r', 1)
      else if c = 't' then .ok ('\t', 1)
      else if c = 'u' then
        match care with
        | .full => (codeEscape rest).map fun (decoded, used) => (decoded, used + 1)
        | .skim => (hexCode rest).map fun _ => ('u', 5)
      else faultAt .invalidEscape text

/-- The characters of a string up to its closing quote. The first `skip` characters have been used
by an escape before them. -/
def stringFrom (care : Care) : Nat → List Char → Reading (List Char)
  | _, [] => faultBefore .endInString []
  | skip + 1, _ :: rest => stringFrom care skip rest
  | 0, c :: rest =>
      if c = '"' then .ok ([], rest)
      else if c = '\\' then
        match escape care rest with
        | .error fault => .error fault
        | .ok (decoded, used) =>
            (stringFrom care used rest).map fun (more, behind) => (decoded :: more, behind)
      else if c.toNat < 32 then
        match care with
        | .full => faultAt .controlCharacter (c :: rest)
        | .skim => faultBefore .controlCharacter (c :: rest)
      else (stringFrom care 0 rest).map fun (more, behind) => (c :: more, behind)

/-- A string, its opening quote already read. -/
def quotedString (care : Care) (text : List Char) : Reading String :=
  (stringFrom care 0 text).map fun (characters, rest) => (String.ofList characters, rest)

/-! ## Values -/

/-- The colon between a name and its value. -/
def colon (text : List Char) : Except Fault (List Char) :=
  match skipSpace text with
  | ':' :: rest => .ok rest
  | [] => faultAt .endInObject []
  | rest => faultAt .expectedColon rest

/-- A value that is not a container. -/
def scalar (care : Care) (text : List Char) : Reading Json :=
  match text with
  | [] => faultAt .endInValue []
  | 'n' :: rest => literal .null ['u', 'l', 'l'] rest
  | 't' :: rest => literal (.boolean true) ['r', 'u', 'e'] rest
  | 'f' :: rest => literal (.boolean false) ['a', 'l', 's', 'e'] rest
  | '"' :: rest => (quotedString care rest).map fun (value, behind) => (.string value, behind)
  | '-' :: rest =>
      match care with
      | .full => number true rest
      | .skim => skimNumber rest
  | c :: _ =>
      if c.isDigit then
        match care with
        | .full => number false text
        | .skim => skimNumber text
      else faultAt .expectedValue text

/-- What may follow a comma: a further item or member begins, or the text is at fault. -/
def afterComma (care : Care) (close : Char) (text : List Char) : Except Fault (List Char) :=
  match care, skipSpace text with
  | .full, [] => faultAt .endInValue []
  | .full, c :: rest => if c = close then faultAt .trailingComma (c :: rest) else .ok (c :: rest)
  | .skim, rest => .ok rest

def memberName (care : Care) (text : List Char) : Except Fault (String × List Char) :=
  match text with
  | '"' :: rest => do
      let (name, behind) ← quotedString care rest
      let behind ← colon behind
      return (name, behind)
  | [] => faultAt .endInObject []
  | rest => faultAt .keyNotString rest

mutual

/-- A value. Containers may be nested `depth - 1` deep when it is read in full; `bound` limits the
number of steps. -/
def valueWithin (care : Care) : Nat → Nat → List Char → Reading Json
  | 0, _, text => faultAt .endInValue text
  | bound + 1, depth, text =>
      match skipSpace text with
      | '[' :: rest =>
          if care = .full ∧ depth ≤ 1 then faultAt .tooDeep ('[' :: rest)
          else
            match skipSpace rest with
            | [] => faultAt .endInList []
            | ']' :: behind => .ok (.array [], behind)
            | first =>
                (itemsWithin care bound (depth - 1) first).map fun (items, behind) =>
                  (.array items, behind)
      | '{' :: rest =>
          if care = .full ∧ depth ≤ 1 then faultAt .tooDeep ('{' :: rest)
          else
            match skipSpace rest with
            | [] => faultAt .endInObject []
            | '}' :: behind => .ok (.object [], behind)
            | first =>
                (membersWithin care bound (depth - 1) first).map fun (members, behind) =>
                  (.object members, behind)
      | start => scalar care start

/-- The items of an array from the next one on, and its closing bracket. -/
def itemsWithin (care : Care) : Nat → Nat → List Char → Except Fault (List Json × List Char)
  | 0, _, text => faultAt .endInList text
  | bound + 1, depth, text => do
      let (item, behind) ← valueWithin care bound depth text
      match skipSpace behind with
      | ']' :: rest => return ([item], rest)
      | ',' :: rest => do
          let next ← afterComma care ']' rest
          let (items, rest) ← itemsWithin care bound depth next
          return (item :: items, rest)
      | [] => faultAt .endInList []
      | rest => faultAt .expectedListEnd rest

/-- The members of an object from the next one on, and its closing brace. -/
def membersWithin (care : Care) :
    Nat → Nat → List Char → Except Fault (List (String × Json) × List Char)
  | 0, _, text => faultAt .endInObject text
  | bound + 1, depth, text => do
      let (name, behind) ← memberName care text
      let (value, behind) ← valueWithin care bound depth behind
      match skipSpace behind with
      | '}' :: rest => return ([(name, value)], rest)
      | ',' :: rest => do
          let next ← afterComma care '}' rest
          let (members, rest) ← membersWithin care bound depth next
          return ((name, value) :: members, rest)
      | [] => faultAt .endInObject []
      | rest => faultAt .expectedObjectEnd rest

end

/-- Containers may be nested this deep, less one. -/
def maxDepth : Nat := 128

/-- More steps than the reading of a text can take. -/
def stepBound (text : List Char) : Nat :=
  2 * text.length + 2

def finish (text : List Char) : Except Fault Unit :=
  match skipSpace text with
  | [] => .ok ()
  | rest => faultAt .trailingCharacters rest

/-- The value a text stands for, its containers nested `depth - 1` deep at most. -/
def readWithin (depth : Nat) (text : List Char) : Except Fault Json := do
  let (value, rest) ← valueWithin .full (stepBound text) depth text
  finish rest
  return value

def read (text : List Char) : Except Fault Json :=
  readWithin maxDepth text

end MplServer.Json
