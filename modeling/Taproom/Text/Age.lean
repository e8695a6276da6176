import Taproom.Calendar.Layout

/-!
Ages in words: how long ago something happened, to about one digit.
-/

namespace Taproom.Text

open Calendar (dayNumber)

/-- The seconds from the beginning of the year 0 to a time such as `2024-05-06T07:08:09Z`. -/
def secondsOf (time : String) : Int :=
  ((Calendar.Layout.internet.read? time).map Calendar.Moment.seconds).getD 0

def padded (width : Nat) (n : Int) : String :=
  let digits := toString n
  String.ofList (List.replicate (width - digits.length) '0') ++ digits

/-- The time that so many seconds after the beginning of 1970 is. Days are counted in periods of
400 years, in which the calendar repeats. -/
def timeText (seconds : Int) : String :=
  let days := seconds / 86400 + dayNumber 1970 1 1 - dayNumber 0 3 1
  let period := days / 146097
  let inPeriod := days % 146097
  let y := (inPeriod - inPeriod / 1460 + inPeriod / 36524 - inPeriod / 146096) / 365
  let inYear := inPeriod - (365 * y + y / 4 - y / 100)
  let m := (5 * inYear + 2) / 153
  let day := inYear - (153 * m + 2) / 5 + 1
  let month := if m < 10 then m + 3 else m - 9
  let year := y + 400 * period + (if month ≤ 2 then 1 else 0)
  let rest := seconds % 86400
  s!"{padded 4 year}-{padded 2 month}-{padded 2 day}T{padded 2 (rest / 3600)}" ++
    s!":{padded 2 (rest % 3600 / 60)}:{padded 2 (rest % 60)}Z"

def minute : Nat := 60
def hour : Nat := 60 * minute
def day : Nat := 24 * hour
def month : Nat := 30 * day
def year : Nat := 12 * month

def spans : List (Nat × Nat × String) :=
  [(2, 0, "1 second"), (minute, 1, "seconds"), (2 * minute, 0, "1 minute"),
   (hour, minute, "minutes"), (2 * hour, 0, "1 hour"), (day, hour, "hours"),
   (2 * day, 0, "1 day"), (7 * day, day, "days"), (14 * day, 0, "1 week"),
   (month, 7 * day, "weeks"), (2 * month, 0, "1 month"), (year, month, "months"),
   (18 * month, 0, "1 year"), (2 * year, 0, "2 years"), (37 * year, year, "years")]

def spanText (seconds : Nat) : String :=
  match spans.find? fun (bound, _) => seconds < bound with
  | none => "a long while"
  | some (_, 0, words) => words
  | some (_, unit, words) => s!"{seconds / unit} {words}"

def age (now time : String) : String :=
  let n := secondsOf now - secondsOf time
  if n = 0 then "now"
  else spanText n.natAbs ++ (if n < 0 then " from now" else " ago")

end Taproom.Text
