import ResourceScript.Number.Shortest
import ResourceScript.Text.Space
import ResourceScript.Text.Letter
import ResourceScript.Fault
/-!
# Numbers and their numerals

A number is an integer of any size or a double. A numeral may use the decimal digits of any script.
Integers of more than 4300 digits are neither read nor written. Which texts are whole numerals, and
that an integer is read back from its text, is shown in `ResourceScript.Proofs.Number.Numeral`.
-/

set_option autoImplicit false

namespace ResourceScript

/-- An integer or a double. -/
inductive Number where
  /-- An integer of any size. -/
  | int (n : Int)
  /-- A double. -/
  | real (x : Double)
  deriving DecidableEq, Repr

namespace Numeral

open Text

/-- The greatest number of digits of an integer numeral. -/
def maxDigits : Nat := 4300

/-- The number that a sequence of decimal digits denotes. -/
def digitsValue (digits : List Char) : Nat :=
  digits.foldl (fun n c => 10 * n + (digitValue? c).getD 0) 0

/-- An optional sign: whether it is negative, and the rest of the text. -/
def sign : List Char → Bool × List Char
  | '-' :: rest => (true, rest)
  | '+' :: rest => (false, rest)
  | text => (false, text)

/-- Whether a text is a whole numeral: an optional sign and at least one decimal digit. -/
def isWhole (text : List Char) : Bool :=
  let digits := (sign text).2
  !digits.isEmpty && digits.all isDecimalDigit

/-- The integer of a whole numeral; a numeral with too many digits is refused. -/
def wholeValue (text : List Char) : Except Fault Int :=
  let (negative, digits) := sign text
  if maxDigits < digits.length then .error .value
  else
    let n : Int := (digitsValue digits : Nat)
    .ok (if negative then -n else n)

/-- Drops one line feed at the end, which an anchored pattern does not see. -/
def dropFinalLineFeed (text : List Char) : List Char :=
  match text.reverse with
  | '\n' :: rest => rest.reverse
  | _ => text

/-- The exponent part of a numeral: a letter e, an optional sign and at least one digit. -/
def exponent? : List Char → Option Int
  | [] => some 0
  | mark :: rest =>
    if mark = 'e' ∨ mark = 'E' then
      let (negative, digits) := sign rest
      if digits.isEmpty || !digits.all isDecimalDigit then none
      else
        let n : Int := (digitsValue digits : Nat)
        some (if negative then -n else n)
    else none

/-- The parts of a real numeral: sign, digits before the point, digits after it, exponent. A point
may lack digits on one of its sides. -/
def real? (text : List Char) : Option Double :=
  let (negative, rest) := sign text
  let whole := rest.takeWhile isDecimalDigit
  let afterWhole := rest.dropWhile isDecimalDigit
  let (fraction, afterFraction) : List Char × List Char :=
    match afterWhole with
    | '.' :: more => (more.takeWhile isDecimalDigit, more.dropWhile isDecimalDigit)
    | _ => ([], afterWhole)
  if whole.isEmpty && fraction.isEmpty then none
  else
    (exponent? afterFraction).map fun exponent =>
      Double.ofDecimal negative (digitsValue (whole ++ fraction))
        (exponent - (fraction.length : Int))

/-- The number that a trimmed text denotes: `none` when it is no numeral. -/
def read (text : List Char) : Except Fault (Option Number) :=
  let trimmed := trim text
  if isWhole trimmed then (wholeValue trimmed).map fun n => some (.int n)
  else .ok ((real? trimmed).map .real)

/-- Removes the low lines between digits; `none` when one stands elsewhere. -/
def dropLowLines : List Char → Option (List Char)
  | [] => some []
  | '_' :: _ => none
  | c :: '_' :: d :: rest =>
    if isDecimalDigit c && isDecimalDigit d then (dropLowLines (d :: rest)).map (c :: ·) else none
  | c :: rest => (dropLowLines rest).map (c :: ·)

/-- A free-form real: white space around it, low lines between digits and the words for infinity
and not a number are allowed. -/
def freeReal? (text : List Char) : Option Double :=
  let trimmed := trim text
  let (negative, rest) := sign trimmed
  let word := String.ofList (rest.map asciiLower)
  if word = "inf" ∨ word = "infinity" then some (.infinite negative)
  else if word = "nan" then some .nan
  else (dropLowLines trimmed).bind real?

/-- The decimal text of an integer; one with too many digits is refused. -/
def intText (n : Int) : Except Fault (List Char) :=
  let digits := Decimal.natDigits n.natAbs
  if maxDigits < digits.length then .error .value
  else .ok (if n < 0 then '-' :: digits else digits)

end Numeral

namespace Number

/-- The double of a number; an integer beyond the range of doubles is refused. -/
def toDouble : Number → Except Fault Double
  | real x => .ok x
  | int n =>
    match Double.ofInt n with
    | .infinite _ => .error .overflow
    | x => .ok x

/-- The integer part of a number; `nan` and the infinities have none. -/
def toInt : Number → Except Fault Int
  | int n => .ok n
  | real .nan => .error .value
  | real x =>
    match x.truncate? with
    | some n => .ok n
    | none => .error .overflow

/-- The sum of two numbers: exact for integers, rounded otherwise. -/
def add : Number → Number → Except Fault Number
  | int a, int b => .ok (.int (a + b))
  | a, b => do return .real (Double.add (← a.toDouble) (← b.toDouble))

/-- Whether a number is zero. -/
def isZero : Number → Bool
  | int n => n == 0
  | real x => x.isZero

/-- Equality of values across the two kinds of numbers. -/
def equal : Number → Number → Bool
  | int a, int b => a == b
  | real x, real y => x.equal y
  | int a, real y => y.compareInt a == some .eq
  | real x, int b => x.compareInt b == some .eq

/-- The plain text of a number. -/
def text : Number → Except Fault (List Char)
  | int n => Numeral.intText n
  | real x => .ok (RealFormat.plain.text x)

end Number

end ResourceScript
