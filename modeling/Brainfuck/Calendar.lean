import Brainfuck.Numeral.Integer

/-!
Dates and moments of the Gregorian calendar. A moment is a date with a time of day,
and possibly the offset of the zone in which that time is meant. Two moments with
offsets are the same if they are the same instant.
-/
namespace Brainfuck

structure Date where
  year : Nat
  month : Nat
  day : Nat
deriving DecidableEq

structure Moment where
  date : Date
  hour : Nat
  minute : Nat
  second : Nat
  microsecond : Nat
  /-- The minutes by which the zone is ahead. -/
  offset : Option Int
deriving DecidableEq

inductive CalendarFault where
  | year (n : Nat)
  | month
  | day
  | hour
  | minute
  | second
  | offset (minutes : Int)
deriving DecidableEq

namespace Calendar

def numbers (ns : List Nat) : String := Text.commaSeparated (ns.map Numeral.natText)

def minutesPerDay : Int := 24 * 60

/-- A span of minutes, in days and the seconds beyond them, which are never negative. -/
def spanText (minutes : Int) : String :=
  let days := minutes.fdiv minutesPerDay
  let seconds := minutes.fmod minutesPerDay * 60
  let parts :=
    (if days == 0 then [] else ["days=" ++ Numeral.intText days]) ++
      (if seconds == 0 then [] else ["seconds=" ++ Numeral.intText seconds])
  "datetime.timedelta(" ++ Text.commaSeparated parts ++ ")"

def zoneText (offset : Int) : String :=
  if offset == 0 then "datetime.timezone.utc"
  else "datetime.timezone(" ++ spanText offset ++ ")"

def isLeapYear (year : Nat) : Bool := year % 4 == 0 && (year % 100 != 0 || year % 400 == 0)

def daysInMonth (year month : Nat) : Nat :=
  if month == 2 then if isLeapYear year then 29 else 28
  else if month == 4 || month == 6 || month == 9 || month == 11 then 30
  else 31

end Calendar

def CalendarFault.message : CalendarFault → String
  | .year n => "year " ++ Numeral.natText n ++ " is out of range"
  | .month => "month must be in 1..12"
  | .day => "day is out of range for month"
  | .hour => "hour must be in 0..23"
  | .minute => "minute must be in 0..59"
  | .second => "second must be in 0..59"
  | .offset minutes =>
      "offset must be a timedelta strictly between -timedelta(hours=24) and " ++
        "timedelta(hours=24), not " ++ Calendar.spanText minutes ++ "."

namespace Date

def check (d : Date) : Except CalendarFault Date :=
  if d.year == 0 then .error (.year d.year)
  else if d.month == 0 || 12 < d.month then .error .month
  else if d.day == 0 || Calendar.daysInMonth d.year d.month < d.day then .error .day
  else .ok d

def daysBefore (year : Nat) : Nat → Nat
  | 0 => 0
  | months + 1 => daysBefore year months + Calendar.daysInMonth year (months + 1)

/-- The number of a day, counted from the first day of the calendar. -/
def ordinal (d : Date) : Nat :=
  let y := d.year - 1
  365 * y + y / 4 - y / 100 + y / 400 + daysBefore d.year (d.month - 1) + d.day

def render (d : Date) : String :=
  "datetime.date(" ++ Calendar.numbers [d.year, d.month, d.day] ++ ")"

end Date

namespace Moment

/-- The offset is checked first, then the parts from the year on. -/
def check (m : Moment) : Except CalendarFault Moment := do
  if let some offset := m.offset then
    if Calendar.minutesPerDay ≤ offset.natAbs then throw (.offset offset)
  let _ ← m.date.check
  if 23 < m.hour then throw .hour
  if 59 < m.minute then throw .minute
  if 59 < m.second then throw .second
  return m

def minutes (m : Moment) : Int := (m.date.ordinal * 24 + m.hour) * 60 + m.minute

/-- Whether two moments are the same instant, or the same time without a zone. -/
def sameAs (m n : Moment) : Bool :=
  match m.offset, n.offset with
  | none, none => m == n
  | some a, some b =>
      m.minutes - a == n.minutes - b && m.second == n.second && m.microsecond == n.microsecond
  | _, _ => false

/-- Zeros at the end of the time are left out, the minute apart. -/
def render (m : Moment) : String :=
  let upToMinute := [m.date.year, m.date.month, m.date.day, m.hour, m.minute]
  let rest :=
    if m.microsecond != 0 then [m.second, m.microsecond]
    else if m.second != 0 then [m.second]
    else []
  let zone := match m.offset with
    | none => ""
    | some offset => ", tzinfo=" ++ Calendar.zoneText offset
  "datetime.datetime(" ++ Calendar.numbers (upToMinute ++ rest) ++ zone ++ ")"

end Moment

end Brainfuck
