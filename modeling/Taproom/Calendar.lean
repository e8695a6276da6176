import Taproom.Text.Number

/-!
Days, and points in time.
-/

namespace Taproom.Calendar

/-- The days from the first day of the year 0 to a date. Years begin in March here, so that a leap
day is the last day of its year. -/
def dayNumber (year month day : Int) : Int :=
  let y := if month ≤ 2 then year - 1 else year
  let m := (month + 9) % 12
  365 * y + y / 4 - y / 100 + y / 400 + (153 * m + 2) / 5 + day

def isLeap (year : Nat) : Bool := year % 4 = 0 && (year % 100 ≠ 0 || year % 400 = 0)

def daysIn (year month : Nat) : Nat :=
  if month = 2 then (if isLeap year then 29 else 28)
  else if month = 4 ∨ month = 6 ∨ month = 9 ∨ month = 11 then 30
  else 31

/-- A date and a time of day in a zone, whose distance from the common one is told in seconds. -/
structure Moment where
  year : Nat := 1
  month : Nat := 1
  day : Nat := 1
  hour : Nat := 0
  minute : Nat := 0
  second : Nat := 0
  nanosecond : Nat := 0
  offset : Int := 0
  deriving DecidableEq, Repr

namespace Moment

def seconds (m : Moment) : Int :=
  dayNumber m.year m.month m.day * 86400 + m.hour * 3600 + m.minute * 60 + m.second - m.offset

def isBeginning (m : Moment) : Bool :=
  m.seconds = seconds {} && m.nanosecond = 0

def isReal (m : Moment) : Bool := 1 ≤ m.day && m.day ≤ daysIn m.year m.month

end Moment

end Taproom.Calendar
