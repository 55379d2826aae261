/-!
Floating-point numbers of 64 bits, computed exactly: every operation takes the exact quotient of
two natural numbers and rounds it once, to nearest, ties to even.
-/

namespace MplServer

/-- A floating-point number as its bits: a sign, eleven exponent bits, 52 fraction bits. -/
structure Binary64 where
  bits : UInt64
deriving DecidableEq, Repr, Inhabited

namespace Binary64

/-- The quotient of two natural numbers to the nearest natural number; a half goes to the even
one. -/
def roundQuotient (numerator denominator : Nat) : Nat :=
  let whole := numerator / denominator
  let rest := numerator % denominator
  if denominator < 2 * rest then whole + 1
  else if 2 * rest = denominator then whole + whole % 2
  else whole

/-- `numerator / denominator` in units of two to the `exponent`. -/
def inUnits (numerator denominator : Nat) (exponent : Int) : Nat × Nat :=
  if 0 ≤ exponent then (numerator, denominator * Nat.pow 2 exponent.toNat)
  else (numerator * Nat.pow 2 (-exponent).toNat, denominator)

/-- The exponent of the last bit that is kept of a quotient: 53 bits, less near zero. -/
def lastBit (numerator denominator : Nat) : Int :=
  let guess : Int := (Nat.log2 numerator : Int) - Nat.log2 denominator - 53
  let (n, d) := inUnits numerator denominator guess
  max (if Nat.pow 2 53 ≤ n / d then guess + 1 else guess) (-1074)

def assemble (negative : Bool) (magnitude : Nat) : Binary64 :=
  ⟨UInt64.ofNat ((if negative then Nat.pow 2 63 else 0) + min magnitude (2047 * Nat.pow 2 52))⟩

/-- The number nearest to a quotient; one too large for any becomes an infinity. -/
def ofQuotient (negative : Bool) (numerator denominator : Nat) : Binary64 :=
  if numerator = 0 ∨ denominator = 0 then assemble negative 0
  else
    let exponent := lastBit numerator denominator
    let (n, d) := inUnits numerator denominator exponent
    let significand := roundQuotient n d
    if significand < Nat.pow 2 52 then assemble negative significand
    else assemble negative ((exponent + 1074).toNat * Nat.pow 2 52 + significand)

def isNegative (x : Binary64) : Bool :=
  Nat.pow 2 63 ≤ x.bits.toNat

def magnitude (x : Binary64) : Nat :=
  x.bits.toNat % Nat.pow 2 63

def isFinite (x : Binary64) : Bool :=
  x.magnitude < 2047 * Nat.pow 2 52

def isZero (x : Binary64) : Bool :=
  x.magnitude = 0

/-- The significand `m` and the exponent `q` of a finite number `m · 2 ^ q`. -/
def parts (x : Binary64) : Nat × Int :=
  let biased : Nat := x.magnitude / Nat.pow 2 52
  let fraction : Nat := x.magnitude % Nat.pow 2 52
  if biased = 0 then (fraction, -1074) else (Nat.pow 2 52 + fraction, Int.ofNat biased - 1075)

/-- The exact value of a finite number, its sign left out, as a quotient. -/
def quotient (x : Binary64) : Nat × Nat :=
  let (significand, exponent) := x.parts
  if 0 ≤ exponent then (significand * Nat.pow 2 exponent.toNat, 1)
  else (significand, Nat.pow 2 (-exponent).toNat)

def ofNat (n : Nat) : Binary64 :=
  ofQuotient false n 1

/-- The number nearest to `digits · 10 ^ exponent`. Exponents beyond any number's reach are not
computed. -/
def ofDecimal (negative : Bool) (digits : Nat) (exponent : Int) : Binary64 :=
  if digits = 0 then assemble negative 0
  else
    let size : Int := (Nat.toDigits 10 digits).length
    if 400 < exponent + size then assemble negative (2047 * Nat.pow 2 52)
    else if exponent + size < -400 then assemble negative 0
    else if 0 ≤ exponent then ofQuotient negative (digits * Nat.pow 10 exponent.toNat) 1
    else ofQuotient negative digits (Nat.pow 10 (-exponent).toNat)

/-- The rounded product of two finite numbers. -/
def mul (x y : Binary64) : Binary64 :=
  let (n, d) := x.quotient
  let (n', d') := y.quotient
  ofQuotient (x.isNegative != y.isNegative) (n * n') (d * d')

/-- The rounded quotient of two finite numbers, the second not zero. -/
def div (x y : Binary64) : Binary64 :=
  let (n, d) := x.quotient
  let (n', d') := y.quotient
  ofQuotient (x.isNegative != y.isNegative) (n * d') (d * n')

def neg (x : Binary64) : Binary64 :=
  assemble (!x.isNegative) x.magnitude

end Binary64

end MplServer
