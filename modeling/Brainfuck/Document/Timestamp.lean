import Brainfuck.Document.Fault
import Brainfuck.Value

/-!
Timestamps: a date, or a date and a time of day with an optional fraction of a second
and an optional zone. Months, days and hours may be written with one digit.
-/
namespace Brainfuck.Document

inductive Timestamp where
  | date (d : Date)
  | moment (m : Moment)

namespace Timestamp

/-- A number of at least `least` and at most `most` digits, and what follows it. -/
def number? (least most : Nat) (text : List Char) : Option (Nat × List Char) :=
  let digits := (text.take most).takeWhile Char.isDigit
  if digits.length < least then none
  else some (Numeral.ofDigits 10 (Numeral.decimalDigits digits), text.drop digits.length)

def after? (mark : Char) : List Char → Option (List Char)
  | [] => none
  | c :: rest => if c == mark then some rest else none

def isGap (c : Char) : Bool := c == ' ' || c == '\t'

/-- What follows the letter or the blanks between date and time. -/
def afterDate? : List Char → Option (List Char)
  | [] => none
  | c :: rest =>
      if c == 'T' || c == 't' then some rest
      else if isGap c then some (rest.dropWhile isGap)
      else none

/-- The first six digits of a fraction of a second, and what follows all of them. -/
def fraction : List Char → Nat × List Char
  | '.' :: rest =>
      let digits := (rest.takeWhile Char.isDigit ++ List.replicate 6 '0').take 6
      (Numeral.ofDigits 10 (Numeral.decimalDigits digits), rest.dropWhile Char.isDigit)
  | text => (0, text)

/-- The offset of a zone in minutes: hours, and minutes after a colon. -/
def offset? (text : List Char) : Option Int := do
  let (hours, rest) ← number? 1 2 text
  if rest.isEmpty then return hours * 60
  let (minutes, rest) ← number? 2 2 (← after? ':' rest)
  if rest.isEmpty then return hours * 60 + minutes else none

def zone? (text : List Char) : Option (Option Int) :=
  match text.dropWhile isGap with
  | [] => if text.isEmpty then some none else none
  | ['Z'] => some (some 0)
  | '+' :: rest => (offset? rest).map some
  | '-' :: rest => (offset? rest).map fun minutes => some (-minutes)
  | _ => none

def read? (text : List Char) : Option Timestamp := do
  let (year, rest) ← number? 4 4 text
  let (month, rest) ← number? 1 2 (← after? '-' rest)
  let (day, rest) ← number? 1 2 (← after? '-' rest)
  if rest.isEmpty then return .date ⟨year, month, day⟩
  let (hour, rest) ← number? 1 2 (← afterDate? rest)
  let (minute, rest) ← number? 2 2 (← after? ':' rest)
  let (second, rest) ← number? 2 2 (← after? ':' rest)
  let (microsecond, rest) := fraction rest
  let offset ← zone? rest
  return .moment ⟨⟨year, month, day⟩, hour, minute, second, microsecond, offset⟩

/-- Whether a plain text is a timestamp without a tag that says so. A date alone then
has two digits for month and day. -/
def isPlain (text : List Char) : Bool :=
  match read? text with
  | some (.date _) => text.length == 10
  | some (.moment _) => true
  | none => false

def toValue : Timestamp → Except CalendarFault Value
  | .date d => d.check.map .date
  | .moment m => m.check.map .moment

end Timestamp

end Brainfuck.Document
