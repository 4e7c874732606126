/-!
# Binary floating point numbers

Numbers of the double precision format as exact values: a finite number is `± mantissa · 2 ^ exponent`.
Every operation computes the exact result and rounds it once to the nearest number of the format, a
tie going to the even mantissa, so nothing here depends on the machine's own arithmetic.

Every finite number is a whole multiple of `2 ^ (-1074)`, and the order of finite numbers is the
order of those multiples (`Double.less_finite`). How far a result is from the ratio that was rounded
is shown in `ResourceScript.Proofs.Number.Rounding`.
-/

set_option autoImplicit false

namespace ResourceScript

/-- A number of the double precision format. In a finite number the mantissa has 53 binary digits,
or fewer when the exponent is the least one, -1074. -/
inductive Double where
  /-- Not a number. -/
  | nan
  /-- An infinity. -/
  | infinite (negative : Bool)
  /-- The number `± mantissa · 2 ^ exponent`. -/
  | finite (negative : Bool) (mantissa : Nat) (exponent : Int)
  deriving DecidableEq, Repr, Inhabited

namespace Double

/-- The least exponent of the format. -/
def leastExponent : Int := -1074

/-- The greatest exponent of the format. -/
def greatestExponent : Int := 971

/-- The positive zero. -/
def zero : Double := finite false 0 leastExponent

/-- `num / den` rounded to the nearest natural number, a tie going to the even one. -/
def roundDiv (num den : Nat) : Nat :=
  let quotient := num / den
  let twice := 2 * (num % den)
  if twice < den then quotient
  else if den < twice then quotient + 1
  else if quotient % 2 = 0 then quotient else quotient + 1

/-- `num · 2 ^ shift / den` as a pair of numerator and denominator. -/
def scale (num den : Nat) (shift : Int) : Nat × Nat :=
  if 0 ≤ shift then (num * Nat.pow 2 shift.toNat, den) else (num, den * Nat.pow 2 (-shift).toNat)

/-- The whole part of the binary logarithm of a positive ratio. -/
def ratioLog2 (num den : Nat) : Int :=
  let guess : Int := (num.log2 : Int) - (den.log2 : Int)
  let (n, d) := scale num den (-guess)
  if n < d then guess - 1 else guess

/-- The number of the format nearest to the ratio `± num / den`; too large ratios are infinite. -/
def ofRatio (negative : Bool) (num den : Nat) : Double :=
  if num = 0 then finite negative 0 leastExponent
  else
    let exponent := max (ratioLog2 num den - 52) leastExponent
    let (n, d) := scale num den (-exponent)
    let mantissa := roundDiv n d
    let (mantissa, exponent) :=
      if mantissa = Nat.pow 2 53 then (Nat.pow 2 52, exponent + 1) else (mantissa, exponent)
    if greatestExponent < exponent then infinite negative else finite negative mantissa exponent

/-- The number of the format nearest to an integer. -/
def ofInt (n : Int) : Double :=
  ofRatio (n < 0) n.natAbs 1

/-- The number of the format nearest to `± digits · 10 ^ exponent`. Exponents far outside the range
of the format are decided without computing the power. -/
def ofDecimal (negative : Bool) (digits : Nat) (exponent : Int) : Double :=
  if digits = 0 then finite negative 0 leastExponent
  else
    let magnitude := exponent + ((digits.log2 : Int) * 30103) / 100000
    if 400 < magnitude then infinite negative
    else if magnitude < -400 then finite negative 0 leastExponent
    else if 0 ≤ exponent then ofRatio negative (digits * Nat.pow 10 exponent.toNat) 1
    else ofRatio negative digits (Nat.pow 10 (-exponent).toNat)

/-- A finite number as a whole multiple of the least positive number `2 ^ (-1074)`. -/
def units : Double → Int
  | finite negative mantissa exponent =>
    let size : Int := (mantissa * Nat.pow 2 (exponent - leastExponent).toNat : Nat)
    if negative then -size else size
  | _ => 0

/-- The number with a given whole multiple of `2 ^ (-1074)` as its exact value, rounded. -/
def ofUnits (negativeZero : Bool) (n : Int) : Double :=
  ofRatio (if n = 0 then negativeZero else n < 0) n.natAbs (Nat.pow 2 1074)

/-- Whether a number is neither infinite nor not a number. -/
def isFinite : Double → Bool
  | finite .. => true
  | _ => false

/-- Whether the sign is negative, that of zero included. -/
def isNegative : Double → Bool
  | nan => false
  | infinite negative => negative
  | finite negative _ _ => negative

/-- Equality of values: the two zeros are equal, and nothing equals `nan`. -/
def equal : Double → Double → Bool
  | nan, _ => false
  | _, nan => false
  | infinite a, infinite b => a == b
  | infinite _, _ => false
  | _, infinite _ => false
  | x, y => x.units == y.units

/-- The strict order of values; `nan` is neither below nor above anything. -/
def less : Double → Double → Bool
  | nan, _ => false
  | _, nan => false
  | infinite a, infinite b => a && !b
  | infinite a, _ => a
  | _, infinite b => !b
  | x, y => x.units < y.units

/-- The sum, rounded. -/
def add : Double → Double → Double
  | nan, _ => nan
  | _, nan => nan
  | infinite a, infinite b => if a == b then infinite a else nan
  | infinite a, _ => infinite a
  | _, infinite b => infinite b
  | x, y => ofUnits (x.isNegative && y.isNegative) (x.units + y.units)

/-- The number with the opposite sign. -/
def neg : Double → Double
  | nan => nan
  | infinite a => infinite (!a)
  | finite a mantissa exponent => finite (!a) mantissa exponent

/-- The difference, rounded. -/
def sub (x y : Double) : Double :=
  add x y.neg

/-- The product, rounded. -/
def mul : Double → Double → Double
  | nan, _ => nan
  | _, nan => nan
  | infinite a, infinite b => infinite (a != b)
  | infinite a, finite b m _ => if m = 0 then nan else infinite (a != b)
  | finite a m _, infinite b => if m = 0 then nan else infinite (a != b)
  | finite a m e, finite b n f =>
    let (num, den) := scale (m * n) 1 (e + f)
    ofRatio (a != b) num den

/-- The integer part of a finite number: rounding toward zero. -/
def truncate? : Double → Option Int
  | finite negative mantissa exponent =>
    let (num, den) := scale mantissa 1 exponent
    some (if negative then -((num / den : Nat) : Int) else ((num / den : Nat) : Int))
  | _ => none

/-- The nearest integer of a finite number, a tie going to the even one. -/
def round? : Double → Option Int
  | finite negative mantissa exponent =>
    let (num, den) := scale mantissa 1 exponent
    some (if negative then -((roundDiv num den : Nat) : Int) else ((roundDiv num den : Nat) : Int))
  | _ => none

/-- Whether the value is a whole number. -/
def isWhole (x : Double) : Bool :=
  match x.truncate? with
  | some n => equal x (ofInt n)
  | none => false

/-- Whether the value is zero, of either sign. -/
def isZero : Double → Bool
  | finite _ mantissa _ => mantissa == 0
  | _ => false

/-- Comparison with an integer by exact value: `none` when the number is not a number. -/
def compareInt (x : Double) (n : Int) : Option Ordering :=
  match x with
  | nan => none
  | infinite negative => some (if negative then .lt else .gt)
  | finite .. => some (compare x.units (n * (Nat.pow 2 1074 : Nat)))

theorem less_finite (a b : Bool) (m n : Nat) (e f : Int) :
    less (finite a m e) (finite b n f) = decide ((finite a m e).units < (finite b n f).units) := rfl

end Double

end ResourceScript
