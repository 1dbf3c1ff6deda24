import Metering.Time.Instant
import Metering.Time.Calendar

/-!
# Instants as text

An instant is written `2024-01-01T00:05:00.500Z`: always in UTC, with the
fewest of 0, 3, 6 or 9 fraction digits that are exact, and with a signed year
outside the years 0 to 9999. A reader may also meet an offset from UTC and any
number of fraction digits, of which those past the nanosecond are dropped.
Messages show the same instant as `2024-01-01 00:05:00.500 UTC`.

Two kinds of text are left out, and `ofText?` refuses them: the second 60 of a
leap second, which is no instant here, and looser forms of the same text, such
as a blank or a small `t` between date and time, a small `z`, blanks around the
parts, or an offset without its colon.
-/

namespace Metering

namespace Instant

/-- Nanoseconds in a day. -/
def nanosPerDay : Int := 86400 * Span.nanosPerSecond

/-- The date of an instant. -/
def date (instant : Instant) : Date := Date.ofDayNumber (instant.nanos / nanosPerDay)

/-- Nanoseconds since the midnight before an instant. -/
def nanosOfDay (instant : Instant) : Nat := (instant.nanos % nanosPerDay).toNat

/-! ## Writing -/

/-- The decimal digits of a number, with leading zeros up to a width. -/
def paddedDigits (width number : Nat) : String :=
  let digits := Nat.toDigits 10 number
  String.ofList (List.replicate (width - digits.length) '0' ++ digits)

/-- A year of four digits, or a signed one outside the years 0 to 9999. -/
def yearText (year : Int) : String :=
  if year < 0 then
    "-" ++ paddedDigits 4 year.natAbs
  else if 9999 < year then
    "+" ++ paddedDigits 4 year.toNat
  else
    paddedDigits 4 year.toNat

/-- A date with dashes. -/
def dateText (date : Date) : String :=
  yearText date.year ++ "-" ++ paddedDigits 2 date.month ++ "-" ++ paddedDigits 2 date.day

/-- The fraction of a second, nothing for a whole second. -/
def fractionText (nanos : Nat) : String :=
  if nanos = 0 then
    ""
  else if nanos % 1000000 = 0 then
    "." ++ paddedDigits 3 (nanos / 1000000)
  else if nanos % 1000 = 0 then
    "." ++ paddedDigits 6 (nanos / 1000)
  else
    "." ++ paddedDigits 9 nanos

/-- The time of day with colons. -/
def timeText (nanosOfDay : Nat) : String :=
  let seconds := nanosOfDay / 1000000000
  paddedDigits 2 (seconds / 3600) ++ ":" ++ paddedDigits 2 (seconds / 60 % 60) ++ ":" ++
    paddedDigits 2 (seconds % 60) ++ fractionText (nanosOfDay % 1000000000)

/-- The written form of an instant. -/
def text (instant : Instant) : String :=
  dateText instant.date ++ "T" ++ timeText instant.nanosOfDay ++ "Z"

/-- The form of an instant inside messages. -/
def display (instant : Instant) : String :=
  dateText instant.date ++ " " ++ timeText instant.nanosOfDay ++ " UTC"

/-! ## Reading -/

/-- The number a run of decimal digits stands for. -/
def digitsValue (digits : List Char) : Nat :=
  digits.foldl (fun value digit => 10 * value + (digit.toNat - '0'.toNat)) 0

/-- Takes exactly `width` decimal digits off the front. -/
def takeDigits? (width : Nat) (input : List Char) : Option (Nat × List Char) :=
  let digits := input.take width
  if digits.length = width && digits.all Char.isDigit then
    some (digitsValue digits, input.drop width)
  else
    none

/-- Takes one given character off the front. -/
def takeChar? (expected : Char) : List Char → Option (List Char)
  | found :: rest => if found = expected then some rest else none
  | [] => none

/-- The calendar's years. -/
def isCalendarYear (year : Int) : Bool := -262143 ≤ year && year ≤ 262142

/-- Takes a year off the front: four digits, or a sign and at least four. -/
def takeYear? (input : List Char) : Option (Int × List Char) :=
  match input with
  | '+' :: rest => signed 1 rest
  | '-' :: rest => signed (-1) rest
  | _ => (takeDigits? 4 input).map fun (year, rest) => ((year : Int), rest)
where
  /-- A year after its sign. -/
  signed (sign : Int) (input : List Char) : Option (Int × List Char) :=
    let digits := input.takeWhile Char.isDigit
    if 4 ≤ digits.length then
      some (sign * (digitsValue digits : Int), input.dropWhile Char.isDigit)
    else
      none

/-- Takes a valid date of the calendar off the front. -/
def takeDate? (input : List Char) : Option (Date × List Char) := do
  let (year, rest) ← takeYear? input
  let rest ← takeChar? '-' rest
  let (month, rest) ← takeDigits? 2 rest
  let rest ← takeChar? '-' rest
  let (day, rest) ← takeDigits? 2 rest
  let date : Date := ⟨year, month, day⟩
  if date.isValid && isCalendarYear year then some (date, rest) else none

/-- Takes an optional fraction of a second off the front, in nanoseconds. -/
def takeFraction? (input : List Char) : Option (Nat × List Char) :=
  match input with
  | '.' :: rest =>
    let digits := rest.takeWhile Char.isDigit
    if digits.isEmpty then
      none
    else
      let kept := digits.take 9
      some (digitsValue kept * Nat.pow 10 (9 - kept.length), rest.dropWhile Char.isDigit)
  | _ => some (0, input)

/-- Takes a time of day off the front, in nanoseconds since midnight. -/
def takeTime? (input : List Char) : Option (Nat × List Char) := do
  let (hour, rest) ← takeDigits? 2 input
  let rest ← takeChar? ':' rest
  let (minute, rest) ← takeDigits? 2 rest
  let rest ← takeChar? ':' rest
  let (second, rest) ← takeDigits? 2 rest
  let (fraction, rest) ← takeFraction? rest
  if hour < 24 && minute < 60 && second < 60 then
    some (((hour * 60 + minute) * 60 + second) * 1000000000 + fraction, rest)
  else
    none

/-- The offset from UTC that ends a text, in seconds. -/
def offset? (input : List Char) : Option Int :=
  match input with
  | ['Z'] => some 0
  | '+' :: rest => clock 1 rest
  | '-' :: rest => clock (-1) rest
  | _ => none
where
  /-- Hours and minutes after the sign, up to the end of the text. -/
  clock (sign : Int) (input : List Char) : Option Int := do
    let (hours, rest) ← takeDigits? 2 input
    let rest ← takeChar? ':' rest
    let (minutes, rest) ← takeDigits? 2 rest
    if rest.isEmpty && hours < 24 && minutes < 60 then
      some (sign * ((hours * 60 + minutes) * 60 : Nat))
    else
      none

/-- Reads an instant, refused when malformed or outside the calendar. -/
def ofText? (text : String) : Option Instant := do
  let (date, rest) ← takeDate? text.toList
  let rest ← takeChar? 'T' rest
  let (nanosOfDay, rest) ← takeTime? rest
  let offset ← offset? rest
  ofNanos? (date.dayNumber * nanosPerDay + nanosOfDay - offset * Span.nanosPerSecond)

example : (ofText? "2024-06-01T00:30:00.25-11:45").map text =
    some "2024-06-01T12:15:00.250Z" := by decide +kernel
example : last.text = "+262142-12-31T23:59:59.999999999Z" := by decide +kernel
example : first.display = "-262143-01-01 00:00:00 UTC" := by decide +kernel
example : ofText? "2024-02-30T00:00:00Z" = none := by decide +kernel
example : ofText? "2016-12-31T23:59:60Z" = none := by decide +kernel

end Instant

end Metering
