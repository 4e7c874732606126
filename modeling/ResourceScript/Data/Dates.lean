import ResourceScript.Data.Conversion
/-!
# Data as moments

Moments are read from texts such as `2020-01-02 10:30:00` or `10:30`, from arrays of up to six
numbers, and from years with a fraction of a day. What does not describe a moment is none; null and
blank text mean the present moment.
-/

set_option autoImplicit false

namespace ResourceScript

open Text

namespace Moment

/-- The characters between the day and the time of a text. -/
def isSeparator (c : Char) : Bool :=
  c == ' ' || c == '\t' || c == 't' || c == 'T' || c == ',' || c == '_'

/-- The moment of six fields, if they denote one. -/
def ofFields? (year month day hour minute second micro : Nat) : Option Moment :=
  let m : Moment := ⟨⟨year, month, day⟩, ⟨hour, minute, second, micro⟩, none⟩
  if m.isValid then some m else none

/-- The moment of an array of numbers: a year, a month and a day, the first of each if they are
missing; or up to six fields that replace those of the first moment of 1970. -/
def ofArray? : List Nat → Option Moment
  | [] => none
  | [year] => ofFields? year 1 1 0 0 0 0
  | [year, month] => ofFields? year month 1 0 0 0 0
  | [year, month, day] => ofFields? year month day 0 0 0 0
  | [year, month, day, hour] => ofFields? year month day hour 0 0 0
  | [year, month, day, hour, minute] => ofFields? year month day hour minute 0 0
  | [year, month, day, hour, minute, second] => ofFields? year month day hour minute second 0
  | _ => none

/-- An unsigned whole numeral, white space around it allowed. -/
def unsigned? (text : List Char) : Option Nat :=
  let digits := trim text
  if digits.isEmpty || !digits.all isDecimalDigit || Numeral.maxDigits < digits.length then none
  else some (Numeral.digitsValue digits)

/-- The seconds of a text as whole seconds and microseconds. -/
def seconds? (text : List Char) : Option (Nat × Nat) := do
  let seconds ← Numeral.freeReal? text
  let whole ← seconds.truncate?
  let fraction := Double.sub seconds (Double.ofInt whole)
  let micro ← (Double.mul fraction (Double.ofInt 1000000)).round?
  if 0 ≤ whole ∧ 0 ≤ micro then some (whole.toNat, micro.toNat) else none

/-- A moment with the time of a text: hours and, after colons, minutes and seconds. -/
def withTime? (m : Moment) (text : List Char) : Option Moment := do
  let (hour, minute, seconds) ← match splitOn ':' text with
    | [hour] => some (hour, ['0'], ['0'])
    | [hour, minute] => some (hour, minute, ['0'])
    | [hour, minute, seconds] => some (hour, minute, seconds)
    | _ => none
  let hour ← unsigned? hour
  let minute ← unsigned? minute
  let (second, micro) ← seconds? seconds
  ofFields? m.day.year m.day.month m.day.day hour minute second micro

/-- The moment of the day and the time of a text; without a day it is the first of 1970. -/
def ofParts? (day time : Option (List Char)) : Option Moment := do
  let m ← match day with
    | some text => ((splitOn '-' text).mapM unsigned?).bind ofArray?
    | none => some epoch
  match time with
  | none | some [] => some m
  | some text => m.withTime? text

/-- The moment of a trimmed text that is not empty. The first separator behind the first character
ends the day. -/
def ofText? : List Char → Option Moment
  | [] => none
  | c :: rest =>
    if rest.any isSeparator then
      ofParts? (some (c :: rest.takeWhile fun c => !isSeparator c))
        (some (trim ((rest.dropWhile fun c => !isSeparator c).drop 1)))
    else if (c :: rest).contains ':' then ofParts? none (some (c :: rest))
    else ofParts? (some (c :: rest)) none

/-- Milliseconds as microseconds, rounded to the nearest, a tie going to the even one. -/
def microsOfMillis? (millis : Double) : Option Int := do
  let whole ← millis.truncate?
  let fraction := Double.sub millis (Double.ofInt whole)
  let rest ← (Double.mul fraction (Double.ofInt 1000)).round?
  return whole * 1000 + rest

/-- The moment of a year: its fraction counts as a part of the first day. -/
def ofYear? (n : Number) : Option Moment := do
  let year ← n.toInt.toOption
  let value ← n.toDouble.toOption
  let fraction := Double.sub value (Double.ofInt year)
  let micros ← microsOfMillis? (Double.mul fraction (Double.ofInt 86400000))
  if 1 ≤ year ∧ year ≤ 9999 then
    (← ofFields? year.toNat 1 1 0 0 0 0).addMicroseconds micros
  else none

end Moment

namespace Data

/-- One field of an array of numbers. -/
def unsignedField? : Data → Option Nat
  | text s => Moment.unsigned? s.toList
  | bool b => some (if b then 1 else 0)
  | int n => if 0 ≤ n then some n.toNat else none
  | real x => do
    let n ← x.truncate?
    if 0 ≤ n then some n.toNat else none
  | atom (.bytes data) => byteField data
  | buffer data => byteField data
  | _ => none
where
  /-- Bytes that spell an unsigned numeral. -/
  byteField (data : List UInt8) : Option Nat :=
    let chars := data.map fun b => Char.ofNat b.toNat
    let digits := trim chars
    let (negative, unsigned) := Numeral.sign digits
    match Numeral.dropLowLines unsigned with
    | some digits =>
      if digits.isEmpty || !digits.all isAsciiDigit || Numeral.maxDigits < digits.length then none
      else
        let n := Numeral.digitsValue digits
        if negative && n != 0 then none else some n
    | none => none

/-- The moment of a text; a blank text is the present moment. -/
def momentOfText (now : Moment) (s : String) : Option Moment :=
  let trimmed := trim s.toList
  if trimmed.isEmpty then some now else Moment.ofText? trimmed

/-- The moment that data describes, `none` when it describes none. -/
def toMoment (now : Moment) : Data → Except Fault (Option Moment)
  | null => .ok (some now)
  | atom (.moment m) => .ok (some m)
  | atom (.day d) => .ok (some ⟨d, .midnight, none⟩)
  | bool _ => .ok none
  | int n => .ok (Moment.ofYear? (.int n))
  | real x => .ok (Moment.ofYear? (.real x))
  | list items => .ok ((items.mapM unsignedField?).bind Moment.ofArray?)
  | tuple items => .ok ((items.mapM unsignedField?).bind Moment.ofArray?)
  | atom (.url u) => .ok ((u.parts.mapM fun part => Moment.unsigned? part.toList).bind
      Moment.ofArray?)
  | text s => .ok (momentOfText now s)
  | other =>
    match other.toText with
    | .ok s => .ok (momentOfText now s)
    | .error .recursion => .error .recursion
    | .error _ => .ok none

end Data

end ResourceScript
