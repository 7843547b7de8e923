import BuildLog.Text.Blank
import BuildLog.Text.DecimalDigit
import BuildLog.Text.Scan

namespace BuildLog
open Text

/-- A day, counted so that 0001-01-01 is day 1, and a time on that day. A leap second is the second
before it with a thousand million nanoseconds more. -/
structure Timestamp where
  day : Int
  second : Nat
  nanosecond : Nat
deriving DecidableEq

namespace Timestamp

def isLeapYear (year : Int) : Bool := year % 4 == 0 && (year % 100 != 0 || year % 400 == 0)

def monthLengths (year : Int) : List Nat :=
  [31, if isLeapYear year then 29 else 28, 31, 30, 31, 30, 31, 31, 30, 31, 30, 31]

def daysBefore (year : Int) (month : Nat) : Nat :=
  ((monthLengths year).take (month - 1)).foldl (· + ·) 0

def dayNumber (year : Int) (month day : Nat) : Int :=
  let past := year - 1
  365 * past + past / 4 - past / 100 + past / 400 + daysBefore year month + day

/-- The years that can be told. -/
def inRange (year : Int) : Bool := -262143 ≤ year && year ≤ 262142

def ofFields? (year : Int) (month day hour minute second nanosecond : Nat) : Option Timestamp :=
  match if month = 0 then none else (monthLengths year)[month - 1]? with
  | none => none
  | some length =>
    if inRange year && 1 ≤ day && day ≤ length && hour < 24 && minute < 60 && second ≤ 60 then
      let leap := second / 60
      some ⟨dayNumber year month day, hour * 3600 + minute * 60 + (second - leap),
        leap * 1000000000 + nanosecond⟩
    else none

def digits? (most : Nat) (s : List Char) : Option (Nat × List Char) :=
  let ds := (s.take most).takeWhile isAsciiDigit
  if ds.isEmpty then none else some (decimalValue ds, s.drop ds.length)

def field? (s : List Char) : Option (Nat × List Char) := digits? 2 (trimStart s)

/-- A year after optional blanks: up to four digits, or a sign and any number of digits. -/
def year? (s : List Char) : Option (Int × List Char) :=
  match trimStart s with
  | '-' :: r => (digits? r.length r).map fun x => (-(x.1 : Int), x.2)
  | '+' :: r => (digits? r.length r).map fun x => ((x.1 : Int), x.2)
  | r => (digits? 4 r).map fun x => ((x.1 : Int), x.2)

/-- A fraction of a second in nanoseconds: a dot and digits, of which nine count, or nothing. -/
def fraction? : List Char → Option (Nat × List Char)
  | '.' :: r =>
    let ds := r.takeWhile isAsciiDigit
    if ds.isEmpty then none
    else
      let kept := ds.take 9
      some (decimalValue kept * Nat.pow 10 (9 - kept.length), r.drop ds.length)
  | r => some (0, r)

def read? (text : String) : Option Timestamp := do
  let (year, s) ← year? text.toList
  let (month, s) ← field? (← after? ['-'] s)
  let (day, s) ← field? (← after? ['-'] s)
  let (hour, s) ← field? (trimStart s)
  let (minute, s) ← field? (← after? [':'] s)
  let (second, s) ← field? (← after? [':'] s)
  let (nanosecond, s) ← fraction? s
  if s.isEmpty then ofFields? year month day hour minute second nanosecond else none

/-- Leap seconds that end between two times, as far as the times themselves show. -/
def leapsBetween (a b : Timestamp) : Int :=
  if a.second < b.second && 1000000000 ≤ a.nanosecond then 1
  else if b.second < a.second && 1000000000 ≤ b.nanosecond then -1
  else 0

def nanosecondsBetween (a b : Timestamp) : Int :=
  ((b.day - a.day) * 86400 + ((b.second : Int) - a.second) + leapsBetween a b) * 1000000000 +
    ((b.nanosecond : Int) - a.nanosecond)

def secondsBetween (a b : Timestamp) : Int := (nanosecondsBetween a b).tdiv 1000000000

end Timestamp
end BuildLog
