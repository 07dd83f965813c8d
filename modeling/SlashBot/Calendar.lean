import SlashBot.Text.Digit

/-!
# Dates and timestamps

A date belongs to the Gregorian calendar, extended to all years from 1 to 9999. A
timestamp adds a time of day and may carry the offset of its time zone. Two
timestamps with offsets are the same instant if they agree after the offsets are
taken off.
-/

namespace SlashBot

open SlashBot.Text

/-- A day of the calendar. -/
structure Date where
  year : Nat
  month : Nat
  day : Nat
  deriving DecidableEq, Repr

namespace Date

/-- Every fourth year is a leap year, except three centuries out of four. -/
def isLeapYear (year : Nat) : Bool :=
  year % 4 == 0 && (year % 100 != 0 || year % 400 == 0)

/-- The number of days in a month. -/
def daysInMonth (year month : Nat) : Nat :=
  if month == 2 then if isLeapYear year then 29 else 28
  else if month == 4 || month == 6 || month == 9 || month == 11 then 30
  else 31

/-- The date with the given numbers, if the calendar has it. -/
def of? (year month day : Nat) : Option Date :=
  if 1 ≤ year ∧ year ≤ 9999 ∧ 1 ≤ month ∧ month ≤ 12 ∧ 1 ≤ day ∧ day ≤ daysInMonth year month then
    some ⟨year, month, day⟩
  else none

/-- The number of days from the first of January of year 1 to the date. -/
def ordinal (date : Date) : Nat :=
  let past := date.year - 1
  let months := (List.range (date.month - 1)).map fun i => daysInMonth date.year (i + 1)
  past * 365 + past / 4 - past / 100 + past / 400 + months.foldl (· + ·) 0 + (date.day - 1)

/-- Year, month and day with hyphens between them. -/
def text (date : Date) : String :=
  zeroFilled 4 date.year ++ "-" ++ zeroFilled 2 date.month ++ "-" ++ zeroFilled 2 date.day

/-- The date as a constructor call. -/
def literal (date : Date) : String :=
  s!"datetime.date({date.year}, {date.month}, {date.day})"

end Date

/-- A time on a day, and the seconds by which its zone is ahead, if that is known. -/
structure Timestamp where
  date : Date
  hour : Nat
  minute : Nat
  second : Nat
  microsecond : Nat
  offset : Option Int
  deriving DecidableEq, Repr

namespace Timestamp

/-- The timestamp with the given numbers, if there is one. An offset stays below
a day. -/
def of? (date : Date) (hour minute second microsecond : Nat) (offset : Option Int) :
    Option Timestamp :=
  if hour < 24 ∧ minute < 60 ∧ second < 60 ∧ offset.all (fun seconds => seconds.natAbs < 86400) then
    some ⟨date, hour, minute, second, microsecond, offset⟩
  else none

/-- The microseconds since the first day, as the clock on the wall shows them. -/
def wallMicroseconds (time : Timestamp) : Int :=
  ((((time.date.ordinal * 24 + time.hour) * 60 + time.minute) * 60 + time.second) * 1000000 +
    time.microsecond : Nat)

/-- Two timestamps that denote the same moment. One with an offset never equals
one without. -/
def sameMoment (left right : Timestamp) : Bool :=
  match left.offset, right.offset with
  | none, none => left.wallMicroseconds == right.wallMicroseconds
  | some ahead, some ahead' =>
      left.wallMicroseconds - ahead * 1000000 == right.wallMicroseconds - ahead' * 1000000
  | _, _ => false

/-- The offset as hours and minutes behind a sign. -/
def offsetText (seconds : Int) : String :=
  let minutes := seconds.natAbs / 60
  (if seconds < 0 then "-" else "+") ++ zeroFilled 2 (minutes / 60) ++ ":" ++
    zeroFilled 2 (minutes % 60)

/-- Date and time with a space between them, the fraction if there is one, and
the offset. -/
def text (time : Timestamp) : String :=
  time.date.text ++ " " ++ zeroFilled 2 time.hour ++ ":" ++ zeroFilled 2 time.minute ++ ":" ++
    zeroFilled 2 time.second ++
    (if time.microsecond == 0 then "" else "." ++ zeroFilled 6 time.microsecond) ++
    (match time.offset with
      | none => ""
      | some seconds => offsetText seconds)

/-- A span of seconds as a constructor call, with a day below zero if it is
negative. -/
def spanLiteral (seconds : Int) : String :=
  let days := Int.fdiv seconds 86400
  let rest := Int.fmod seconds 86400
  let parts :=
    (if days == 0 then [] else [s!"days={days}"]) ++
      (if rest == 0 then [] else [s!"seconds={rest}"])
  "datetime.timedelta(" ++ ", ".intercalate parts ++ ")"

/-- The timestamp as a constructor call, without seconds and fraction where these
are zero. -/
def literal (time : Timestamp) : String :=
  let numbers :=
    [time.date.year, time.date.month, time.date.day, time.hour, time.minute] ++
      (if time.microsecond != 0 then [time.second, time.microsecond]
      else if time.second != 0 then [time.second]
      else [])
  let zone :=
    match time.offset with
    | none => []
    | some 0 => ["tzinfo=datetime.timezone.utc"]
    | some seconds => ["tzinfo=datetime.timezone(" ++ spanLiteral seconds ++ ")"]
  "datetime.datetime(" ++ ", ".intercalate (numbers.map toString ++ zone) ++ ")"

end Timestamp

end SlashBot
