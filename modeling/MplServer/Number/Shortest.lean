import MplServer.Number.Binary64

/-!
The decimal text of a floating-point number: the fewest digits that read back as the same number,
and of those the nearest.
-/

namespace MplServer.Binary64

/-- A decimal number, `digits · 10 ^ exponent`. -/
structure Decimal where
  digits : Nat
  exponent : Int
deriving DecidableEq, Repr

/-- The same number without zeros at the end. At most `bound` zeros are taken off. -/
def Decimal.trimZeros : Nat → Decimal → Decimal
  | 0, number => number
  | bound + 1, number =>
      if number.digits ≠ 0 ∧ number.digits % 10 = 0 then
        trimZeros bound ⟨number.digits / 10, number.exponent + 1⟩
      else number

/-- Four times the ends of the interval of numbers that round to a finite positive number, in units
of two to its exponent, and whether the ends belong to it. -/
def interval (x : Binary64) : Nat × Nat × Bool :=
  let (significand, _) := x.parts
  let lower := if significand = Nat.pow 2 52 ∧ Nat.pow 2 53 ≤ x.magnitude then 4 * significand - 1
    else 4 * significand - 2
  (lower, 4 * significand + 2, significand % 2 = 0)

/-- `candidate · 10 ^ exponent` rounds to `x`. -/
def readsBack (x : Binary64) (candidate : Nat) (exponent : Int) : Bool :=
  let (lower, upper, closed) := x.interval
  let (_, power) := x.parts
  let decimal := if 0 ≤ exponent then (candidate * Nat.pow 10 exponent.toNat, 1)
    else (candidate, Nat.pow 10 (-exponent).toNat)
  let unit := if 0 ≤ power then (Nat.pow 2 power.toNat, 1) else (1, Nat.pow 2 (-power).toNat)
  let left := 4 * decimal.1 * unit.2
  let low := lower * unit.1 * decimal.2
  let high := upper * unit.1 * decimal.2
  if closed then low ≤ left && left ≤ high else low < left && left < high

/-- The largest `k` with `10 ^ k` at most a positive quotient. -/
def leadingExponent (numerator denominator : Nat) : Int :=
  if denominator ≤ numerator then
    ((Nat.toDigits 10 (numerator / denominator)).length : Int) - 1
  else
    let size := (Nat.toDigits 10 (denominator / numerator)).length
    let exact := denominator = numerator * Nat.pow 10 (size - 1)
    if exact then -((size : Int) - 1) else -(size : Int)

/-- The nearest number with a given count of digits that reads back, if one does. -/
def withDigits? (x : Binary64) (leading : Int) (count : Nat) : Option Decimal :=
  let (numerator, denominator) := x.quotient
  let exponent := leading - count + 1
  let (n, d) := if 0 ≤ exponent then (numerator, denominator * Nat.pow 10 exponent.toNat)
    else (numerator * Nat.pow 10 (-exponent).toNat, denominator)
  let below := n / d
  let nearBelow := 2 * (n % d) < d ∨ (2 * (n % d) = d ∧ below % 2 = 0)
  match x.readsBack below exponent, x.readsBack (below + 1) exponent with
  | true, true => some ⟨if nearBelow then below else below + 1, exponent⟩
  | true, false => some ⟨below, exponent⟩
  | false, true => some ⟨below + 1, exponent⟩
  | false, false => none

/-- The shortest decimal that reads back as a finite positive number. Seventeen digits always do. -/
def shortest (x : Binary64) : Decimal :=
  let (numerator, denominator) := x.quotient
  let leading := leadingExponent numerator denominator
  let found := (List.range 17).findSome? fun count => x.withDigits? leading (count + 1)
  (found.getD ⟨0, 0⟩).trimZeros 20

/-- How a number is laid out: the leading exponents that are written without an exponent part, and
the least number of digits of an exponent part. -/
structure Layout where
  lowest : Int
  highest : Int
  exponentDigits : Nat

/-- Numbers from a hundred-thousandth up to ten to the sixteenth are written in full; an exponent
has a sign and two digits or more. -/
def layout : Layout := ⟨-5, 15, 2⟩

/-- Digits with zeros before them up to a width. -/
def padLeft (width : Nat) (digits : List Char) : List Char :=
  List.replicate (width - digits.length) '0' ++ digits

/-- The text of a finite number. A whole number keeps a zero after the point. -/
def text (x : Binary64) : String :=
  let sign := if x.isNegative then "-" else ""
  if x.isZero then sign ++ "0.0"
  else
    let number := x.shortest
    let digits := Nat.toDigits 10 number.digits
    let leading := number.exponent + digits.length - 1
    if layout.lowest ≤ leading ∧ leading ≤ layout.highest then
      if 0 ≤ number.exponent then
        sign ++ String.ofList (digits ++ List.replicate number.exponent.toNat '0') ++ ".0"
      else if 0 ≤ leading then
        let whole := (leading + 1).toNat
        sign ++ String.ofList (digits.take whole ++ ['.'] ++ digits.drop whole)
      else
        sign ++ "0." ++ String.ofList (List.replicate (-leading - 1).toNat '0' ++ digits)
    else
      let mantissa := match digits with
        | [digit] => [digit]
        | digit :: rest => digit :: '.' :: rest
        | [] => []
      let mark := if leading < 0 then "e-" else "e+"
      let exponent := padLeft layout.exponentDigits (Nat.toDigits 10 leading.natAbs)
      sign ++ String.ofList mantissa ++ mark ++ String.ofList exponent

end MplServer.Binary64
