import ResourceScript.Number.Numeral
/-!
# Days, times and moments

The proleptic Gregorian calendar from year 1 to year 9999, times of day to the microsecond, and
moments: a day with a time and, if the moment is bound to a zone, its offset from universal time.

A moment is written as in ISO 8601, with a chosen character between day and time. That a moment
without a zone is read back from its text is shown in `ResourceScript.Proofs.Data.DateText`.
-/

set_option autoImplicit false

namespace ResourceScript

/-- A day of the calendar. -/
structure Day where
  /-- The year, from 1 to 9999. -/
  year : Nat
  /-- The month, from 1 to 12. -/
  month : Nat
  /-- The day of the month. -/
  day : Nat
  deriving DecidableEq, Repr, Inhabited

/-- A time of day. -/
structure TimeOfDay where
  /-- The hour, from 0 to 23. -/
  hour : Nat
  /-- The minute, from 0 to 59. -/
  minute : Nat
  /-- The second, from 0 to 59. -/
  second : Nat
  /-- The microsecond, below one million. -/
  micro : Nat
  deriving DecidableEq, Repr, Inhabited

/-- A day with a time of day. A moment with an offset (in seconds east) is bound to a zone. -/
structure Moment where
  /-- The day. -/
  day : Day
  /-- The time of day. -/
  time : TimeOfDay
  /-- The offset from universal time in seconds, if the moment is bound to a zone. -/
  offset : Option Int
  deriving DecidableEq, Repr, Inhabited

namespace Calendar

/-- Whether a year has a 29 February. -/
def isLeap (year : Nat) : Bool :=
  year % 4 == 0 && (year % 100 != 0 || year % 400 == 0)

/-- The number of days of a month. -/
def daysInMonth (year month : Nat) : Nat :=
  match month with
  | 2 => if isLeap year then 29 else 28
  | 4 | 6 | 9 | 11 => 30
  | _ => 31

/-- The number of days before a year, counted from the first day of year 1. -/
def daysBeforeYear (year : Nat) : Nat :=
  let y := year - 1
  y * 365 + y / 4 - y / 100 + y / 400

/-- The number of days of a year before a month. -/
def daysBeforeMonth (year month : Nat) : Nat :=
  (List.range (month - 1)).foldl (fun days m => days + daysInMonth year (m + 1)) 0

/-- Two digits at least. -/
def twoDigits (n : Nat) : List Char :=
  RealFormat.padZeros 2 (Decimal.natDigits n)

end Calendar

namespace Day

open Calendar

/-- Whether the fields denote a day of the calendar. -/
def isValid (d : Day) : Bool :=
  1 ≤ d.year && d.year ≤ 9999 && 1 ≤ d.month && d.month ≤ 12 && 1 ≤ d.day
    && d.day ≤ daysInMonth d.year d.month

/-- The number of a day: 1 for the first day of year 1. -/
def number (d : Day) : Nat :=
  daysBeforeYear d.year + daysBeforeMonth d.year d.month + d.day

/-- The month and the day of month of the `rest`-th day (from zero) of a year, looking at the
months from `month` on. -/
def monthOf (year : Nat) : (fuel month rest : Nat) → Nat × Nat
  | 0, month, rest => (month, rest + 1)
  | fuel + 1, month, rest =>
    let size := daysInMonth year month
    if rest < size then (month, rest + 1) else monthOf year fuel (month + 1) (rest - size)

/-- The day with a given number. -/
def ofNumber (n : Nat) : Day :=
  let index := n - 1
  let guess := index / 366 + 1
  let year := yearOf (index / 366 / 365 + 4) guess index
  let (month, day) := monthOf year 12 1 (index - daysBeforeYear year)
  ⟨year, month, day⟩
where
  /-- Steps from a year to the year that holds the day at a position. -/
  yearOf : (fuel year index : Nat) → Nat
    | 0, year, _ => year
    | fuel + 1, year, index =>
      if daysBeforeYear (year + 1) ≤ index then yearOf fuel (year + 1) index else year

/-- The day of the week, 0 for Monday. -/
def weekday (d : Day) : Nat :=
  (d.number + 6) % 7

/-- The written form `YYYY-MM-DD`. -/
def text (d : Day) : List Char :=
  RealFormat.padZeros 4 (Decimal.natDigits d.year) ++ '-' :: twoDigits d.month
    ++ '-' :: twoDigits d.day

end Day

namespace TimeOfDay

open Calendar

/-- Whether the fields denote a time of day. -/
def isValid (t : TimeOfDay) : Bool :=
  t.hour < 24 && t.minute < 60 && t.second < 60 && t.micro < 1000000

/-- Midnight. -/
def midnight : TimeOfDay := ⟨0, 0, 0, 0⟩

/-- The seconds since midnight. -/
def seconds (t : TimeOfDay) : Nat :=
  t.hour * 3600 + t.minute * 60 + t.second

/-- How far the written form of a time of day goes. -/
inductive Precision where
  /-- To seconds, and to microseconds when they are not zero. -/
  | needed
  | hours | minutes | seconds | milliseconds | microseconds
  deriving DecidableEq, Repr

/-- The written form with a precision: `HH:MM:SS` and digits of a second, or less. -/
def textTo (t : TimeOfDay) (precision : Precision) : List Char :=
  let toHours := twoDigits t.hour
  let toMinutes := toHours ++ ':' :: twoDigits t.minute
  let toSeconds := toMinutes ++ ':' :: twoDigits t.second
  let toMicroseconds := toSeconds ++ '.' :: RealFormat.padZeros 6 (Decimal.natDigits t.micro)
  match precision with
  | .needed => if t.micro = 0 then toSeconds else toMicroseconds
  | .hours => toHours
  | .minutes => toMinutes
  | .seconds => toSeconds
  | .milliseconds => toSeconds ++ '.' :: RealFormat.padZeros 3 (Decimal.natDigits (t.micro / 1000))
  | .microseconds => toMicroseconds

/-- The written form `HH:MM:SS`, with six digits of a second when they are not all zero. -/
def text (t : TimeOfDay) : List Char :=
  t.textTo .needed

end TimeOfDay

namespace Moment

open Calendar

/-- The first moment of 1970, without a zone. -/
def epoch : Moment := ⟨⟨1970, 1, 1⟩, .midnight, none⟩

/-- Whether the fields denote a moment. -/
def isValid (m : Moment) : Bool :=
  m.day.isValid && m.time.isValid

/-- The number of the first day of 1970. -/
def epochDay : Nat := Day.number ⟨1970, 1, 1⟩

/-- The seconds from the first moment of 1970 to the wall clock of a moment. -/
def wallSeconds (m : Moment) : Int :=
  ((m.day.number : Int) - (epochDay : Int)) * 86400 + (m.time.seconds : Int)

/-- The microseconds from the first moment of 1970 in universal time; a moment without a zone is
taken as universal time. -/
def microseconds (m : Moment) : Int :=
  (m.wallSeconds - m.offset.getD 0) * 1000000 + (m.time.micro : Int)

/-- The seconds since 1970 as a double. The first day of the calendar has none without a zone,
since its neighbourhood in local time reaches outside the calendar. -/
def timestamp (m : Moment) : Except Fault Double :=
  match m.offset with
  | some _ =>
    let us := m.microseconds
    .ok (Double.ofRatio (us < 0) us.natAbs 1000000)
  | none =>
    if m.day.number ≤ 1 then .error .value
    else .ok (Double.add (Double.ofInt m.wallSeconds) (Double.ofRatio false m.time.micro 1000000))

/-- The moment a number of microseconds after a moment; outside the calendar there is none. -/
def addMicroseconds (m : Moment) (us : Int) : Option Moment :=
  let start : Int := (m.day.number : Int) * 86400 + (m.time.seconds : Int)
  let total := start * 1000000 + (m.time.micro : Int) + us
  let day := total / 86400000000
  let rest := (total % 86400000000).toNat
  if day < 1 ∨ 3652059 < day then none
  else
    let seconds := rest / 1000000
    some ⟨Day.ofNumber day.toNat,
      ⟨seconds / 3600, seconds / 60 % 60, seconds % 60, rest % 1000000⟩, m.offset⟩

/-- The written form of an offset: sign, hours and minutes, and seconds when there are any. -/
def offsetText (offset : Int) : List Char :=
  let n := offset.natAbs
  (if offset < 0 then '-' else '+') :: (twoDigits (n / 3600) ++ ':' :: twoDigits (n / 60 % 60)
    ++ (if n % 60 = 0 then [] else ':' :: twoDigits (n % 60)))

/-- The written form with a chosen character between day and time, to a precision. -/
def textTo (separator : Char) (precision : TimeOfDay.Precision) (m : Moment) : List Char :=
  m.day.text ++ separator :: m.time.textTo precision ++ (m.offset.map offsetText).getD []

/-- The written form with a chosen character between day and time. -/
def text (separator : Char) (m : Moment) : List Char :=
  m.textTo separator .needed

/-- The order of two moments; one with and one without a zone cannot be compared. -/
def order (a b : Moment) : Except Fault Ordering :=
  if a.offset.isSome = b.offset.isSome then .ok (compare a.microseconds b.microseconds)
  else .error .type

end Moment

end ResourceScript
