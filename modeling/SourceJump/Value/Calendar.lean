import SourceJump.Text.Basic

/-!
# Dates and times

A date is a day of the Gregorian calendar in the years 1 to 9999. A time of day has microseconds and
may have an offset from universal time. Both are written as ISO 8601 writes them.
-/

namespace SourceJump

/-- A day of the calendar. -/
structure Date where
  year : Nat
  month : Nat
  day : Nat
  deriving DecidableEq, Repr

/-- A day, a time of day and, if known, the minutes by which the clock is ahead of universal
time. -/
structure DateTime where
  date : Date
  hour : Nat
  minute : Nat
  second : Nat
  microsecond : Nat
  offset : Option Int
  deriving DecidableEq, Repr

/-- Why numbers form no date, time or offset. -/
inductive CalendarError where
  | year (y : Nat)
  | month
  | day
  | hour
  | minute
  | second
  /-- The offset, in minutes, reaches a whole day. -/
  | offset (minutes : Int)
  deriving DecidableEq, Repr

/-- The decimal numeral of `n`, filled up with zeros to `width` digits. -/
def padded (width n : Nat) : Text :=
  let digits := Text.ofNat n
  List.replicate (width - digits.length) (.char '0') ++ digits

namespace Date

/-- A year with a twenty-ninth of February. -/
def isLeap (year : Nat) : Bool :=
  year % 4 == 0 && (year % 100 != 0 || year % 400 == 0)

/-- The number of days of a month. -/
def daysIn (year month : Nat) : Nat :=
  if month = 2 then (if isLeap year then 29 else 28)
  else if month = 4 || month = 6 || month = 9 || month = 11 then 30
  else 31

/-- The day with these numbers; the first number that is out of range is reported. -/
def make (year month day : Nat) : Except CalendarError Date :=
  if year < 1 || 9999 < year then .error (.year year)
  else if month < 1 || 12 < month then .error .month
  else if day < 1 || daysIn year month < day then .error .day
  else .ok ⟨year, month, day⟩

/-- The number of days before this one, counted from the first of January of the year 1. -/
def ordinal (d : Date) : Nat :=
  let y := d.year - 1
  let months := (List.range (d.month - 1)).map fun m => daysIn d.year (m + 1)
  365 * y + y / 4 - y / 100 + y / 400 + months.foldr (· + ·) 0 + (d.day - 1)

/-- Year, month and day with hyphens between them. -/
def iso (d : Date) : Text :=
  Text.join ['-'] [padded 4 d.year, padded 2 d.month, padded 2 d.day]

end Date

namespace DateTime

/-- The day and time with these numbers; the date is judged before the time. -/
def make (year month day hour minute second microsecond : Nat) (offset : Option Int) :
    Except CalendarError DateTime := do
  let date ← Date.make year month day
  if 23 < hour then .error .hour
  else if 59 < minute then .error .minute
  else if 59 < second then .error .second
  else .ok ⟨date, hour, minute, second, microsecond, offset⟩

/-- An offset must stay below a day in either direction. -/
def checkOffset (minutes : Int) : Except CalendarError Int :=
  if minutes.natAbs < 24 * 60 then .ok minutes else .error (.offset minutes)

/-- Microseconds of the local clock since the start of the year 1. -/
def localMicroseconds (t : DateTime) : Int :=
  (((t.date.ordinal * 24 + t.hour) * 60 + t.minute) * 60 + t.second) * 1000000 + t.microsecond

/-- Two times are the same moment when both have an offset and agree in universal time, or neither
has one and they agree as they stand. -/
def sameMoment (a b : DateTime) : Bool :=
  match a.offset, b.offset with
  | none, none => a.localMicroseconds == b.localMicroseconds
  | some x, some y => a.localMicroseconds - x * 60000000 == b.localMicroseconds - y * 60000000
  | _, _ => false

/-- An offset as sign, hours and minutes. -/
def isoOffset (minutes : Int) : Text :=
  let size := minutes.natAbs
  Text.lit (if minutes < 0 then "-" else "+") ++
    Text.join [':'] [padded 2 (size / 60), padded 2 (size % 60)]

/-- The date, `separator`, and the time of day; microseconds only where there are any. -/
def iso (separator : CodePoint) (t : DateTime) : Text :=
  let clock := Text.join [':'] [padded 2 t.hour, padded 2 t.minute, padded 2 t.second]
  let fraction : Text := if t.microsecond = 0 then [] else '.' :: padded 6 t.microsecond
  let offset := match t.offset with
    | some minutes => isoOffset minutes
    | none => []
  t.date.iso ++ separator :: clock ++ fraction ++ offset

end DateTime

/-- A signed span of minutes as whole days and the remaining seconds, as a constructor call shows
them. -/
def spanText (minutes : Int) : Text :=
  let days := Int.fdiv minutes 1440
  let seconds := Int.fmod minutes 1440 * 60
  let dayPart := if days = 0 then [] else [Text.lit "days=" ++ Text.ofInt days]
  let secondPart := if seconds = 0 then [] else [Text.lit "seconds=" ++ Text.ofInt seconds]
  let arguments := dayPart ++ secondPart
  Text.lit "datetime.timedelta(" ++
    (if arguments.isEmpty then Text.lit "0" else Text.join (Text.lit ", ") arguments) ++
    Text.lit ")"

/-- The message for numbers that form no date, time or offset. -/
def CalendarError.message : CalendarError → String
  | .year y => s!"year {y} is out of range"
  | .month => "month must be in 1..12"
  | .day => "day is out of range for month"
  | .hour => "hour must be in 0..23"
  | .minute => "minute must be in 0..59"
  | .second => "second must be in 0..59"
  | .offset minutes =>
    let span := (spanText minutes).toString
    "offset must be a timedelta strictly between -timedelta(hours=24) and timedelta(hours=24), " ++
      s!"not {span}."

end SourceJump
