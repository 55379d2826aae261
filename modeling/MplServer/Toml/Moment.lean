/-!
Dates and times as TOML writes them, and their standard form.
-/

namespace MplServer.Toml

/-- A number of exactly `width` digits at the front of a text. -/
def fixedNumber? (width : Nat) (text : List Char) : Option (Nat × List Char) :=
  let digits := text.take width
  if digits.length = width && digits.all Char.isDigit then
    some (digits.foldl (fun value c => value * 10 + (c.toNat - 48)) 0, text.drop width)
  else none

/-- One expected character at the front of a text. -/
def expect? (expected : Char → Bool) : List Char → Option (List Char)
  | c :: rest => if expected c then some rest else none
  | [] => none

/-- A number in decimal digits, with zeros before it up to a width. -/
def padded (width value : Nat) : String :=
  let digits := Nat.toDigits 10 value
  String.ofList (List.replicate (width - digits.length) '0' ++ digits)

def isLeapYear (year : Nat) : Bool :=
  year % 4 = 0 && (year % 100 ≠ 0 || year % 400 = 0)

def daysIn (year month : Nat) : Nat :=
  if month = 2 then (if isLeapYear year then 29 else 28)
  else if month = 4 || month = 6 || month = 9 || month = 11 then 30
  else 31

def date? (text : List Char) : Option (String × List Char) := do
  let (year, rest) ← fixedNumber? 4 text
  let rest ← expect? (· = '-') rest
  let (month, rest) ← fixedNumber? 2 rest
  let rest ← expect? (· = '-') rest
  let (day, rest) ← fixedNumber? 2 rest
  if month = 0 || 12 < month || day = 0 || daysIn year month < day then none
  return (padded 4 year ++ "-" ++ padded 2 month ++ "-" ++ padded 2 day, rest)

/-- The digits of a second behind the point: nine are kept, and zeros at their end are dropped. -/
def fractionText (digits : List Char) : String :=
  let kept := ((digits.take 9).reverse.dropWhile (· = '0')).reverse
  String.ofList (if kept.isEmpty then ['0'] else kept)

/-- A time at the front of a text. Seconds may be left out; a leap second is a second. -/
def time? (text : List Char) : Option (String × List Char) := do
  let (hour, rest) ← fixedNumber? 2 text
  let rest ← expect? (· = ':') rest
  let (minute, rest) ← fixedNumber? 2 rest
  if 23 < hour || 59 < minute then none
  let start := padded 2 hour ++ ":" ++ padded 2 minute
  match rest with
  | ':' :: rest =>
      let (second, rest) ← fixedNumber? 2 rest
      if 60 < second then none
      let start := start ++ ":" ++ padded 2 second
      match rest with
      | '.' :: rest =>
          let digits := rest.takeWhile Char.isDigit
          if digits.isEmpty then none
          return (start ++ "." ++ fractionText digits, rest.dropWhile Char.isDigit)
      | _ => return (start, rest)
  | _ => return (start, rest)

/-- The distance from universal time at the front of a text, if there is one. -/
def offset? (text : List Char) : Option (String × List Char) :=
  match text with
  | 'Z' :: rest => some ("Z", rest)
  | 'z' :: rest => some ("Z", rest)
  | sign :: rest =>
      if sign = '+' || sign = '-' then do
        let (hours, rest) ← fixedNumber? 2 rest
        let rest ← expect? (· = ':') rest
        let (minutes, rest) ← fixedNumber? 2 rest
        if 23 < hours || 59 < minutes then none
        let shown := if sign = '-' && 0 < hours + minutes then "-" else "+"
        return (shown ++ padded 2 hours ++ ":" ++ padded 2 minutes, rest)
      else some ("", text)
  | [] => some ("", [])

/-- The standard form of a text that is a date, a time, or a date and a time. -/
def moment? (text : List Char) : Option String := do
  match date? text with
  | some (date, []) => return date
  | some (date, separator :: rest) =>
      if separator = 'T' || separator = 't' || separator = ' ' then
        let (time, rest) ← time? rest
        let (offset, rest) ← offset? rest
        if rest.isEmpty then return date ++ "T" ++ time ++ offset else none
      else none
  | none =>
      let (time, rest) ← time? text
      if rest.isEmpty then return time else none

end MplServer.Toml
