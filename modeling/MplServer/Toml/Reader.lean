import MplServer.Json.Reader
import MplServer.Toml.Basic
import MplServer.Toml.Moment

/-!
Reading TOML. A text with any fault in it has no value.
-/

namespace MplServer.Toml

def isBlankChar (c : Char) : Bool :=
  c = ' ' || c = '\t'

/-- The text from its first character that is no space or tab. -/
def skipBlanks (text : List Char) : List Char :=
  text.dropWhile isBlankChar

/-- A character that may stand in a comment, and between quotes but for the quote itself. -/
def isVisible (c : Char) : Bool :=
  c = '\t' || (0x20 ≤ c.toNat && c.toNat ≠ 0x7F)

/-- The end of a line, if one is at the front of a text. -/
def lineEnd? : List Char → Option (List Char)
  | '\n' :: rest => some rest
  | '\r' :: '\n' :: rest => some rest
  | _ => none

/-- The text behind blanks, line ends and comments. -/
def skipTrivia (inComment : Bool) : List Char → Option (List Char)
  | [] => some []
  | c :: rest =>
      if c = '\n' then skipTrivia false rest
      else if c = '\r' then
        match rest with
        | '\n' :: _ => skipTrivia false rest
        | _ => none
      else if inComment then (if isVisible c then skipTrivia true rest else none)
      else if isBlankChar c then skipTrivia false rest
      else if c = '#' then skipTrivia true rest
      else some (c :: rest)

/-- The end of a statement: blanks and a comment, then a line end or nothing. -/
def statementEnd? (text : List Char) : Option (List Char) :=
  let rest := skipBlanks text
  let rest := match rest with
    | '#' :: comment => comment.dropWhile isVisible
    | _ => rest
  if rest.isEmpty then some [] else lineEnd? rest

/-! ## Strings -/

def hexNumber? (width : Nat) (text : List Char) : Option Nat :=
  let digits := text.take width
  if digits.length = width then
    digits.foldlM (fun value c => (Json.hexValue? c).map (value * 16 + ·)) 0
  else none

/-- The character with a code; codes of surrogates stand for none. -/
def charOf? (code : Nat) : Option Char :=
  if code.isValidChar then some (Char.ofNat code) else none

/-- The character of an escape, its backslash already read, and the number of characters that were
needed for it. -/
def escape? (text : List Char) : Option (Char × Nat) :=
  match text with
  | 'b' :: _ => some ('\x08', 1)
  | 't' :: _ => some ('\t', 1)
  | 'n' :: _ => some ('\n', 1)
  | 'f' :: _ => some ('\x0c', 1)
  | 'r' :: _ => some ('\r', 1)
  | 'e' :: _ => some ('\x1b', 1)
  | '"' :: _ => some ('"', 1)
  | '\\' :: _ => some ('\\', 1)
  | 'x' :: rest => do return (← charOf? (← hexNumber? 2 rest), 3)
  | 'u' :: rest => do return (← charOf? (← hexNumber? 4 rest), 5)
  | 'U' :: rest => do return (← charOf? (← hexNumber? 8 rest), 9)
  | _ => none

/-- The characters of a basic string up to its closing quote, the first `skip` left out. -/
def basicFrom : Nat → List Char → Option (List Char × List Char)
  | _, [] => none
  | skip + 1, _ :: rest => basicFrom skip rest
  | 0, c :: rest =>
      if c = '"' then some ([], rest)
      else if c = '\\' then
        match escape? rest with
        | none => none
        | some (decoded, used) =>
            (basicFrom used rest).map fun (more, behind) => (decoded :: more, behind)
      else if isVisible c then
        (basicFrom 0 rest).map fun (more, behind) => (c :: more, behind)
      else none

/-- The characters of a literal string up to its closing apostrophe. -/
def literalString : List Char → Option (List Char × List Char)
  | [] => none
  | c :: rest =>
      if c = '\'' then some ([], rest)
      else if isVisible c then
        (literalString rest).map fun (more, behind) => (c :: more, behind)
      else none

/-- The closing quotes of a string over several lines: three, with up to two more before them that
belong to the string. -/
def closing? (quote : Char) (text : List Char) : Option (List Char × List Char) :=
  let count := (text.takeWhile (· = quote)).length
  if count < 3 then none
  else
    let kept := min (count - 3) 2
    some (List.replicate kept quote, text.drop (kept + 3))

/-- The number of characters from a backslash at the end of a line up to the next character that is
neither blank nor a line end, the backslash not counted. -/
def foldedLength? (text : List Char) : Option Nat :=
  match lineEnd? (skipBlanks text) with
  | none => none
  | some _ =>
      let blank := fun c => isBlankChar c || c = '\n' || c = '\r'
      some (text.takeWhile blank).length

/-- The characters of a basic string over several lines, the first `skip` left out. -/
def longBasicFrom : Nat → List Char → Option (List Char × List Char)
  | _, [] => none
  | skip + 1, _ :: rest => longBasicFrom skip rest
  | 0, c :: rest =>
      match closing? '"' (c :: rest) with
      | some found => some found
      | none =>
          if c = '\\' then
            match foldedLength? rest with
            | some used => longBasicFrom used rest
            | none =>
                match escape? rest with
                | none => none
                | some (decoded, used) =>
                    (longBasicFrom used rest).map fun (more, behind) => (decoded :: more, behind)
          else if isVisible c || c = '\n' || (c = '\r' && rest.head? = some '\n') then
            (longBasicFrom 0 rest).map fun (more, behind) => (c :: more, behind)
          else none

/-- The characters of a literal string over several lines. -/
def longLiteral : List Char → Option (List Char × List Char)
  | [] => none
  | c :: rest =>
      match closing? '\'' (c :: rest) with
      | some found => some found
      | none =>
          if isVisible c || c = '\n' || (c = '\r' && rest.head? = some '\n') then
            (longLiteral rest).map fun (more, behind) => (c :: more, behind)
          else none

/-- The text without a line end at its front. -/
def dropLineEnd (text : List Char) : List Char :=
  (lineEnd? text).getD text

/-- A string in any of its four notations. -/
def string? (text : List Char) : Option (List Char × List Char) :=
  match text with
  | '"' :: '"' :: '"' :: rest => longBasicFrom 0 (dropLineEnd rest)
  | '\'' :: '\'' :: '\'' :: rest => longLiteral (dropLineEnd rest)
  | '"' :: rest => basicFrom 0 rest
  | '\'' :: rest => literalString rest
  | _ => none

/-! ## Keys -/

def isBareChar (c : Char) : Bool :=
  c.isAlphanum || c = '_' || c = '-'

def name? (text : List Char) : Option (String × List Char) :=
  match text with
  | '"' :: rest => (basicFrom 0 rest).map fun (name, behind) => (String.ofList name, behind)
  | '\'' :: rest => (literalString rest).map fun (name, behind) => (String.ofList name, behind)
  | _ =>
      let name := text.takeWhile isBareChar
      if name.isEmpty then none else some (String.ofList name, text.dropWhile isBareChar)

/-- The names of a key, with dots between them, and the text behind the blanks that follow. -/
def key? : Nat → List Char → Option (List String × List Char)
  | 0, _ => none
  | bound + 1, text => do
      let (name, rest) ← name? (skipBlanks text)
      match skipBlanks rest with
      | '.' :: rest =>
          let (names, rest) ← key? bound rest
          return (name :: names, rest)
      | rest => return ([name], rest)

/-! ## Numbers and other words -/

/-- Digits with single underscores between them, the underscores left out. -/
def digitRun? (digit : Char → Bool) : List Char → Option (List Char)
  | [] => none
  | [c] => if digit c then some [c] else none
  | c :: '_' :: rest => if digit c then (digitRun? digit rest).map (c :: ·) else none
  | c :: rest => if digit c then (digitRun? digit rest).map (c :: ·) else none

/-- The sign at the front of a number, and the text behind it. -/
def signOf (text : List Char) : Bool × List Char :=
  match text with
  | '+' :: rest => (false, rest)
  | '-' :: rest => (true, rest)
  | _ => (false, text)

/-- Decimal digits of a whole number, without needless zeros. -/
def wholeDigits? (text : List Char) : Option (List Char) := do
  let digits ← digitRun? Char.isDigit text
  if digits.head? = some '0' && 1 < digits.length then none else return digits

def numberOf (base : Nat) (digits : List Char) : Nat :=
  digits.foldl (fun value c => value * base + (Json.hexValue? c).getD 0) 0

/-- A whole number of 64 bits. -/
def inRange? (value : Int) : Option Toml :=
  if -Int.pow 2 63 ≤ value ∧ value < Int.pow 2 63 then some (.integer value) else none

def basedInteger? (base : Nat) (digit : Char → Bool) (text : List Char) : Option Toml := do
  inRange? (numberOf base (← digitRun? digit text))

def integer? (text : List Char) : Option Toml :=
  match text with
  | '0' :: 'x' :: rest => basedInteger? 16 (fun c => (Json.hexValue? c).isSome) rest
  | '0' :: 'o' :: rest => basedInteger? 8 (fun c => '0' ≤ c && c ≤ '7') rest
  | '0' :: 'b' :: rest => basedInteger? 2 (fun c => c = '0' || c = '1') rest
  | _ => do
      let (negative, rest) := signOf text
      let value : Int := numberOf 10 (← wholeDigits? rest)
      inRange? (if negative then -value else value)

/-- A number with a fraction, an exponent or both. -/
def float? (text : List Char) : Option Toml := do
  let (negative, rest) := signOf text
  if rest = ['i', 'n', 'f'] then return .float (.assemble negative (2047 * Nat.pow 2 52))
  if rest = ['n', 'a', 'n'] then
    return .float (.assemble negative (2047 * Nat.pow 2 52 + Nat.pow 2 51))
  let mark := fun c => c = 'e' || c = 'E'
  let (mantissa, exponent) := rest.span fun c => !mark c
  let (whole, fraction) := mantissa.span (· ≠ '.')
  if fraction.isEmpty && exponent.isEmpty then none
  let whole ← wholeDigits? whole
  let fraction ← if fraction.isEmpty then some [] else digitRun? Char.isDigit (fraction.drop 1)
  let power : Int ←
    if exponent.isEmpty then some 0
    else
      let (down, digits) := signOf (exponent.drop 1)
      (digitRun? Char.isDigit digits).map fun digits =>
        let value : Int := numberOf 10 digits
        if down then -value else value
  let value := Binary64.ofDecimal negative (numberOf 10 (whole ++ fraction))
    (power - fraction.length)
  if value.isFinite then return .float value else none

/-- A value without quotes or brackets. -/
def word? (text : List Char) : Option Toml :=
  if text = ['t', 'r', 'u', 'e'] then some (.boolean true)
  else if text = ['f', 'a', 'l', 's', 'e'] then some (.boolean false)
  else ((integer? text).or (float? text)).or ((moment? text).map .moment)

/-- A character that ends a word. -/
def endsWord (c : Char) : Bool :=
  isBlankChar c || c = '\n' || c = '\r' || c = ',' || c = ']' || c = '}' || c = '#'

/-- A word at the front of a text. A date and a time may have one space between them. -/
def spanWord (text : List Char) : List Char × List Char :=
  let (word, rest) := text.span fun c => !endsWord c
  match rest with
  | ' ' :: digit :: more =>
      if (date? word).any (fun found => found.2.isEmpty) && digit.isDigit then
        let (time, rest) := (digit :: more).span fun c => !endsWord c
        (word ++ ' ' :: time, rest)
      else (word, rest)
  | _ => (word, rest)

/-! ## Values and statements -/

/-- Containers may be nested this deep. -/
def maxDepth : Nat := 80

mutual

/-- A value. `bound` limits the number of steps, `depth` the nesting of containers. -/
def valueWithin : Nat → Nat → List Char → Option (Toml × List Char)
  | 0, _, _ => none
  | bound + 1, depth, text =>
      match text with
      | '[' :: rest =>
          if depth = 0 then none
          else do
            let (items, rest) ← itemsWithin bound (depth - 1) rest
            return (.array items, rest)
      | '{' :: rest =>
          if depth = 0 then none
          else do
            let (bindings, rest) ← bindingsWithin bound (depth - 1) rest
            return (← inlineOf? bindings, rest)
      | '"' :: _ => (string? text).map fun (value, rest) => (.string (String.ofList value), rest)
      | '\'' :: _ => (string? text).map fun (value, rest) => (.string (String.ofList value), rest)
      | _ =>
          let (word, rest) := spanWord text
          (word? word).map (·, rest)

/-- The items of an array from the next one on, and its closing bracket. -/
def itemsWithin : Nat → Nat → List Char → Option (List Toml × List Char)
  | 0, _, _ => none
  | bound + 1, depth, text => do
      match ← skipTrivia false text with
      | ']' :: rest => return ([], rest)
      | start =>
          let (item, rest) ← valueWithin bound depth start
          match ← skipTrivia false rest with
          | ']' :: rest => return ([item], rest)
          | ',' :: rest =>
              let (items, rest) ← itemsWithin bound depth rest
              return (item :: items, rest)
          | _ => none

/-- The bindings of a table between braces from the next one on, and its closing brace. -/
def bindingsWithin : Nat → Nat → List Char → Option (List (List String × Toml) × List Char)
  | 0, _, _ => none
  | bound + 1, depth, text => do
      match ← skipTrivia false text with
      | '}' :: rest => return ([], rest)
      | start =>
          let (names, rest) ← key? (start.length + 1) start
          let rest ← expect? (· = '=') rest
          let (value, rest) ← valueWithin bound depth (skipBlanks rest)
          match ← skipTrivia false rest with
          | '}' :: rest => return ([(names, value)], rest)
          | ',' :: rest =>
              let (bindings, rest) ← bindingsWithin bound depth rest
              return ((names, value) :: bindings, rest)
          | _ => none

end

/-- More steps than the reading of a text can take. -/
def stepBound (text : List Char) : Nat :=
  2 * text.length + 2

def statement? (text : List Char) : Option (Statement × List Char) :=
  match text with
  | '[' :: '[' :: rest => do
      let (names, rest) ← key? (rest.length + 1) rest
      match rest with
      | ']' :: ']' :: rest => return (.doubleHeader names, ← statementEnd? rest)
      | _ => none
  | '[' :: rest => do
      let (names, rest) ← key? (rest.length + 1) rest
      let rest ← expect? (· = ']') rest
      return (.header names, ← statementEnd? rest)
  | _ => do
      let (names, rest) ← key? (text.length + 1) text
      let rest ← expect? (· = '=') rest
      let start := skipBlanks rest
      let (value, rest) ← valueWithin (stepBound start) maxDepth start
      return (.binding names value, ← statementEnd? rest)

/-- The statements of a text; `bound` limits their number. -/
def statements? : Nat → List Char → Option (List Statement)
  | 0, _ => none
  | bound + 1, text => do
      match ← skipTrivia false text with
      | [] => return []
      | start =>
          let (statement, rest) ← statement? start
          let more ← statements? bound rest
          return statement :: more

/-- The root table of a text. A byte order mark at its front does not count. -/
def parse? (text : String) : Option Toml := do
  let characters := match text.toList with
    | '\uFEFF' :: rest => rest
    | characters => characters
  ofStatements? (← statements? (characters.length + 1) characters)

end MplServer.Toml
