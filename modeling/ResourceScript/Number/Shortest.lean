import ResourceScript.Number.Double
/-!
# The shortest decimal text of a number

A number is written with the fewest decimal digits that still read back as the same number; among
those the digits nearest to its value are taken. The notation around the digits (where positional
notation ends, how an exponent looks) is a record of its own.
-/

set_option autoImplicit false

namespace ResourceScript

/-- A decimal number `digits · 10 ^ exponent`. -/
structure Decimal where
  /-- The digits as one number. -/
  digits : Nat
  /-- The power of ten of the last digit. -/
  exponent : Int
  deriving DecidableEq, Repr

namespace Decimal

/-- The digit characters of a natural number. -/
def natDigits (n : Nat) : List Char :=
  Nat.toDigits 10 n

/-- Moves trailing zeros of the digits into the exponent; `fuel` bounds the number of zeros. -/
def dropZeros : (fuel : Nat) → Decimal → Decimal
  | 0, d => d
  | fuel + 1, d =>
    if d.digits ≠ 0 ∧ d.digits % 10 = 0 then dropZeros fuel ⟨d.digits / 10, d.exponent + 1⟩ else d

/-- `num · 10 ^ shift / den` as a pair of numerator and denominator. -/
def scale (num den : Nat) (shift : Int) : Nat × Nat :=
  if 0 ≤ shift then (num * Nat.pow 10 shift.toNat, den)
  else (num, den * Nat.pow 10 (-shift).toNat)

/-- The whole part of the decimal logarithm of a positive ratio. -/
def ratioLog10 (num den : Nat) : Int :=
  let guess : Int := (((num.log2 : Int) - (den.log2 : Int)) * 30103) / 100000
  let (n, d) := scale num den (-guess)
  if n < d then guess - 1
  else if 10 * d ≤ n then guess + 1
  else guess

/-- The reals that round to a positive finite number: all between `low` and `high` over `den`, and
the ends too when `closed`. The number itself is `value` over `den`. -/
structure Interval where
  /-- The lower end. -/
  low : Nat
  /-- The number itself. -/
  value : Nat
  /-- The upper end. -/
  high : Nat
  /-- The common denominator. -/
  den : Nat
  /-- Whether the ends belong to the interval. -/
  closed : Bool

/-- The interval of a mantissa and an exponent. The gap below a power of two is half as wide. -/
def interval (mantissa : Nat) (exponent : Int) : Interval :=
  let narrow := mantissa = Nat.pow 2 52 ∧ Double.leastExponent < exponent
  let below := if narrow then 1 else 2
  let factor := Double.scale 1 1 (exponent - 2)
  { low := (4 * mantissa - below) * factor.1
    value := 4 * mantissa * factor.1
    high := (4 * mantissa + 2) * factor.1
    den := factor.2
    closed := mantissa % 2 = 0 }

/-- Whether `count · 10 ^ exponent` lies in an interval. -/
def Interval.holds (i : Interval) (count : Nat) (exponent : Int) : Bool :=
  let (n, d) := scale count 1 exponent
  let point := n * i.den
  if i.closed then i.low * d ≤ point && point ≤ i.high * d
  else i.low * d < point && point < i.high * d

/-- Looks for a point of the interval on the decimal grid with `count` digits, then on finer grids.
Of two hits the nearer is taken, of two equally near ones the even one. Seventeen digits always
suffice. -/
def search (i : Interval) (leading : Int) : (fuel count : Nat) → Decimal
  | 0, _ => ⟨i.value / i.den, 0⟩
  | fuel + 1, count =>
    let exponent := leading - (count : Int) + 1
    let (n, d) := scale i.value i.den (-exponent)
    let lower := n / d
    let upper := lower + 1
    let lowerHit := i.holds lower exponent && lower != 0
    let upperHit := i.holds upper exponent
    let twice := 2 * (n % d)
    if lowerHit && upperHit then
      if twice < d || (twice == d && lower % 2 == 0) then ⟨lower, exponent⟩ else ⟨upper, exponent⟩
    else if lowerHit then ⟨lower, exponent⟩
    else if upperHit then ⟨upper, exponent⟩
    else search i leading fuel (count + 1)

/-- The shortest decimal that reads back as the number `mantissa · 2 ^ exponent`, and of those the
nearest one. -/
def shortest (mantissa : Nat) (exponent : Int) : Decimal :=
  if mantissa = 0 then ⟨0, 0⟩
  else
    let i := interval mantissa exponent
    dropZeros 400 (search i (ratioLog10 i.value i.den) 17 1)

end Decimal

/-- How the digits of a number are laid out. -/
structure RealFormat where
  /-- The least leading exponent in positional notation. -/
  leastPositional : Int
  /-- The least leading exponent above positional notation. -/
  endPositional : Int
  /-- The least number of digits of an exponent. -/
  exponentWidth : Nat
  /-- Whether a whole number with an exponent keeps a fraction `.0`. -/
  exponentFraction : Bool
  /-- The text of an infinity without its sign. -/
  infinity : String
  /-- The text of what is not a number. -/
  notANumber : String

namespace RealFormat

/-- Pads digits with zeros on the left. -/
def padZeros (width : Nat) (digits : List Char) : List Char :=
  List.replicate (width - digits.length) '0' ++ digits

/-- The text of an exponent: its mark, its sign and at least `exponentWidth` digits. -/
def exponentText (format : RealFormat) (exponent : Int) : List Char :=
  'e' :: (if exponent < 0 then '-' else '+') ::
    padZeros format.exponentWidth (Decimal.natDigits exponent.natAbs)

/-- The text of a non-negative decimal. -/
def decimalText (format : RealFormat) (d : Decimal) : List Char :=
  let digits := Decimal.natDigits d.digits
  let leading := d.exponent + (digits.length : Int) - 1
  if d.digits = 0 then ['0', '.', '0']
  else if format.leastPositional ≤ leading ∧ leading < format.endPositional then
    if 0 ≤ d.exponent then digits ++ List.replicate d.exponent.toNat '0' ++ ['.', '0']
    else if 0 ≤ leading then
      digits.take (leading.toNat + 1) ++ '.' :: digits.drop (leading.toNat + 1)
    else '0' :: '.' :: (List.replicate (-leading - 1).toNat '0' ++ digits)
  else
    let fraction := digits.drop 1
    digits.take 1
      ++ (if fraction.isEmpty then (if format.exponentFraction then ['.', '0'] else [])
          else '.' :: fraction)
      ++ format.exponentText leading

/-- The text of a number. -/
def text (format : RealFormat) : Double → List Char
  | .nan => format.notANumber.toList
  | .infinite negative => (if negative then ['-'] else []) ++ format.infinity.toList
  | .finite negative mantissa exponent =>
    (if negative then ['-'] else []) ++ format.decimalText (Decimal.shortest mantissa exponent)

/-- Plain values are positional for leading exponents from -4 to 15. -/
def plain : RealFormat := ⟨-4, 16, 2, false, "inf", "nan"⟩

/-- JSON text spells the values that are not finite in words. -/
def json : RealFormat := { plain with infinity := "Infinity", notANumber := "NaN" }

/-- YAML text keeps a fraction before an exponent and marks the values that are not finite by a
leading point. -/
def yaml : RealFormat :=
  { plain with exponentFraction := true, infinity := ".inf", notANumber := ".nan" }

end RealFormat

end ResourceScript
