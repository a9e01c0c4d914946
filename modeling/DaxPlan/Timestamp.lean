import DaxPlan.Number.Text
import DaxPlan.Text.Blank

/-!
# Points in time

A timestamp counts the seconds since the start of 1970 in UTC, and nanoseconds within the second. A leap second is written as
the second 60 of its minute; it is kept as a second whose nanoseconds run past a thousand million. Timestamps are written with
as many groups of three fraction digits as they need, and read from dates and times with an offset from UTC.
-/

namespace DaxPlan

/-- A point in time. -/
structure Timestamp where
  seconds : Int
  nanoseconds : Nat
  deriving DecidableEq, Repr

namespace Timestamp

def epoch : Timestamp := ⟨0, 0⟩

/-- The point so many milliseconds after the start of 1970. -/
def ofMilliseconds (ms : Int) : Timestamp := ⟨ms.fdiv 1000, (ms.fmod 1000).toNat * 1000000⟩

/-- An earlier point in time. -/
def before (a b : Timestamp) : Bool :=
  a.seconds < b.seconds || (a.seconds == b.seconds && a.nanoseconds < b.nanoseconds)

/-! ## The calendar -/

/-- A day of the Gregorian calendar. -/
structure Date where
  year : Int
  month : Nat
  day : Nat
  deriving DecidableEq, Repr

def isLeapYear (year : Int) : Bool := year.fmod 4 == 0 && (year.fmod 100 != 0 || year.fmod 400 == 0)

def daysInMonth (year : Int) (month : Nat) : Nat :=
  if month == 2 then (if isLeapYear year then 29 else 28)
  else if month == 4 || month == 6 || month == 9 || month == 11 then 30 else 31

/-- The years a date may lie in. -/
def inCalendar (year : Int) : Bool := -262143 ≤ year && year ≤ 262142

def Date.isValid (d : Date) : Bool :=
  inCalendar d.year && 1 ≤ d.month && d.month ≤ 12 && 1 ≤ d.day && d.day ≤ daysInMonth d.year d.month

/-- Days since the start of 1970. The year is taken to start in March, so that a leap day is the last of its year; every 400
years have 146097 days. -/
def Date.toDays (d : Date) : Int :=
  let year := if d.month ≤ 2 then d.year - 1 else d.year
  let era := year.fdiv 400
  let yearOfEra := year.fmod 400
  let monthFromMarch : Nat := (d.month + 9) % 12
  let dayOfYear : Int := (153 * monthFromMarch + 2) / 5 + d.day - 1
  era * 146097 + yearOfEra * 365 + yearOfEra / 4 - yearOfEra / 100 + dayOfYear - 719468

/-- The date so many days after the start of 1970. -/
def Date.ofDays (days : Int) : Date :=
  let shifted := days + 719468
  let era := shifted.fdiv 146097
  let dayOfEra := (shifted.fmod 146097).toNat
  let yearOfEra := (dayOfEra - dayOfEra / 1460 + dayOfEra / 36524 - dayOfEra / 146096) / 365
  let dayOfYear := dayOfEra - (365 * yearOfEra + yearOfEra / 4 - yearOfEra / 100)
  let monthFromMarch := (5 * dayOfYear + 2) / 153
  let day := dayOfYear - (153 * monthFromMarch + 2) / 5 + 1
  let month := if monthFromMarch < 10 then monthFromMarch + 3 else monthFromMarch - 9
  ⟨yearOfEra + era * 400 + (if month ≤ 2 then 1 else 0), month, day⟩

/-! ## Writing -/

/-- A year has four digits; one outside these has a sign. -/
def yearText (year : Int) : String :=
  if 0 ≤ year && year ≤ 9999 then Number.paddedText 4 year.toNat
  else (if year < 0 then "-" else "+") ++ Number.paddedText 4 year.natAbs

/-- The fraction of a second: none, or three, six or nine digits. -/
def fractionText (nanoseconds : Nat) : String :=
  if nanoseconds == 0 then ""
  else if nanoseconds % 1000000 == 0 then "." ++ Number.paddedText 3 (nanoseconds / 1000000)
  else if nanoseconds % 1000 == 0 then "." ++ Number.paddedText 6 (nanoseconds / 1000)
  else "." ++ Number.paddedText 9 nanoseconds

/-- Date and time in UTC. -/
def text (t : Timestamp) : String :=
  let date := Date.ofDays (t.seconds.fdiv 86400)
  let ofDay := (t.seconds.fmod 86400).toNat
  let leap := t.nanoseconds / 1000000000
  yearText date.year ++ "-" ++ Number.paddedText 2 date.month ++ "-" ++ Number.paddedText 2 date.day ++ "T" ++
    Number.paddedText 2 (ofDay / 3600) ++ ":" ++ Number.paddedText 2 (ofDay / 60 % 60) ++ ":" ++
    Number.paddedText 2 (ofDay % 60 + leap) ++ fractionText (t.nanoseconds % 1000000000) ++ "Z"

/-! ## Reading -/

/-- What a reading step makes of a text: a value and the rest of the text. -/
abbrev Reader (β : Type) := List Char → Option (β × List Char)

/-- The value of a list of decimal digits. -/
def digitsValue (digits : List Char) : Nat := digits.foldl (fun n c => 10 * n + (c.toNat - '0'.toNat)) 0

/-- Reads at least one and at most `most` digits, after blanks. -/
def number (most : Option Nat) : Reader Nat := fun s =>
  let s := Text.trimStart s
  let run := s.takeWhile Char.isDigit
  let digits := match most with
    | some most => run.take most
    | none => run
  if digits.isEmpty then none else some (digitsValue digits, s.drop digits.length)

/-- Reads a year: up to four digits, or any number of them after a sign. -/
def year : Reader Int := fun s =>
  match Text.trimStart s with
  | '-' :: rest => if rest.head?.any Char.isDigit then (number none rest).map (fun r => (-(r.1 : Int), r.2)) else none
  | '+' :: rest => if rest.head?.any Char.isDigit then (number none rest).map (fun r => ((r.1 : Int), r.2)) else none
  | rest => (number (some 4) rest).map (fun r => ((r.1 : Int), r.2))

/-- Reads a separator after blanks. -/
def separator (c : Char) : Reader Unit := fun s =>
  match Text.trimStart s with
  | d :: rest => if d == c then some ((), rest) else none
  | [] => none

/-- Reads the fraction of a second as nanoseconds; digits after the ninth are passed over. -/
def fraction : Reader Nat := fun s =>
  match s with
  | '.' :: rest =>
    let run := rest.takeWhile Char.isDigit
    let digits := run.take 9
    if digits.isEmpty then none
    else some (digitsValue digits * Number.tenPow (9 - digits.length), rest.dropWhile Char.isDigit)
  | _ => some (0, s)

/-- Reads two digits. -/
def twoDigits : Reader Nat := fun s =>
  match s with
  | a :: b :: rest => if a.isDigit && b.isDigit then some (digitsValue [a, b], rest) else none
  | _ => none

/-- Reads an offset from UTC in seconds: a `Z`, the letters `UTC`, or a sign with hours and minutes. -/
def offset : Reader Int := fun s =>
  let s := Text.trimStart s
  if (s.take 3).map Char.toUpper == "UTC".toList then some (0, s.drop 3)
  else match s with
    | [] => none
    | c :: rest =>
      if c == 'Z' || c == 'z' then some (0, rest)
      else if c == '+' || c == '-' || c == '−' then do
        let (hours, rest) ← twoDigits rest
        let (minutes, rest) ← twoDigits (rest.dropWhile (fun c => c == ':' || Text.isBlank c))
        if 60 ≤ minutes then none
        else
          let seconds : Int := hours * 3600 + minutes * 60
          some (if c == '+' then seconds else -seconds, rest)
      else none

/-- Reads a date. -/
def date : Reader Date := fun s => do
  let (y, s) ← year s
  let (_, s) ← separator '-' s
  let (m, s) ← number (some 2) s
  let (_, s) ← separator '-' s
  let (d, s) ← number (some 2) s
  let date : Date := ⟨y, m, d⟩
  if date.isValid then some (date, s) else none

/-- Reads a time of day: seconds, and nanoseconds that run past a thousand million in a leap second. -/
def timeOfDay : Reader (Nat × Nat) := fun s => do
  let (hour, s) ← number (some 2) s
  let (_, s) ← separator ':' s
  let (minute, s) ← number (some 2) s
  let (_, s) ← separator ':' s
  let (second, s) ← number (some 2) s
  let (nano, s) ← fraction s
  if 24 ≤ hour || 60 ≤ minute || 61 ≤ second then none
  else if second == 60 then some ((hour * 3600 + minute * 60 + 59, nano + 1000000000), s)
  else some ((hour * 3600 + minute * 60 + second, nano), s)

/-- Reads a date, a `T` or a space, a time of day and an offset, with nothing but blanks after them. -/
def ofText? (text : String) : Option Timestamp := do
  let (d, s) ← date text.toList
  match s with
  | [] => none
  | c :: s =>
    if !(c == 'T' || c == 't' || c == ' ') then none
    else
      let ((seconds, nano), s) ← timeOfDay s
      let (shift, s) ← offset s
      if !Text.isBlankText s || 86400 ≤ shift.natAbs then none
      else
        let utc := d.toDays * 86400 + seconds - shift
        if inCalendar (Date.ofDays (utc.fdiv 86400)).year then some ⟨utc, nano⟩ else none

end Timestamp

end DaxPlan
