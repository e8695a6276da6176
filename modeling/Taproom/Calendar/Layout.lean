import Taproom.Calendar
import Taproom.Text.Utf8

/-!
Points in time as they are written. A layout is a row of parts; each of them is shown in messages
as it stands in the layout of one agreed time.
-/

namespace Taproom.Calendar

/-- A part of a written time. `padded` numbers have two digits, others one or two. A `zone` that
admits `Z` may be the common one by that letter. -/
inductive Part where
  | year
  | month (padded : Bool)
  | day (padded : Bool)
  | hour
  | minute (padded : Bool)
  | second (padded : Bool)
  | fraction
  | zone (letter colon : Bool)
  | text (s : String)
  deriving DecidableEq, Repr

namespace Part

def shown : Part → String
  | year => "2006"
  | month padded => if padded then "01" else "1"
  | day padded => if padded then "02" else "2"
  | hour => "15"
  | minute padded => if padded then "04" else "4"
  | second padded => if padded then "05" else "5"
  | fraction => ".999999999"
  | zone letter colon => (if letter then "Z07" else "-07") ++ (if colon then ":00" else "00")
  | text s => s

end Part

abbrev Layout := List Part

namespace Layout

def shown (l : Layout) : String := String.join (l.map Part.shown)

/-- A date and a time of day in a zone, such as `2006-01-02T15:04:05Z`. -/
def internet : Layout :=
  [.year, .text "-", .month true, .text "-", .day true, .text "T", .hour, .text ":", .minute true,
   .text ":", .second true, .zone true true]

end Layout

inductive Misread where
  | mismatch (layout rest part : String)
  | outOfRange (what : String)
  | extraText (rest : String)
  deriving DecidableEq, Repr

namespace Misread

def hexByte (b : UInt8) : List Char :=
  let digit (n : Nat) : Char := Nat.digitChar n
  ['\\', 'x', digit (b.toNat / 16), digit (b.toNat % 16)]

/-- A text between quotes, in visible characters of one byte. -/
def quoted (s : String) : String :=
  let piece (c : Char) : List Char :=
    if c = '"' || c = '\\' then ['\\', c]
    else if c.toNat < 0x20 || 0x80 ≤ c.toNat then (Utf8.encode [c]).flatMap hexByte
    else [c]
  "\"" ++ String.ofList (s.toList.flatMap piece) ++ "\""

def message (time : String) : Misread → String
  | mismatch layout rest part =>
    "parsing time " ++ quoted time ++ " as " ++ quoted layout ++ ": cannot parse " ++ quoted rest ++
      " as " ++ quoted part
  | outOfRange what => "parsing time " ++ quoted time ++ ": " ++ what ++ " out of range"
  | extraText rest => "parsing time " ++ quoted time ++ ": extra text: " ++ quoted rest

end Misread

namespace Layout

inductive Trouble where
  | mismatch (rest : List Char)
  | outOfRange (what : String)

def number? (padded : Bool) : List Char → Option (Nat × List Char)
  | a :: b :: rest =>
    if !Text.isDigit a then none
    else if Text.isDigit b then some (Text.digitsValue [a, b], rest)
    else if padded then none
    else some (Text.digitsValue [a], b :: rest)
  | [a] => if Text.isDigit a && !padded then some (Text.digitsValue [a], []) else none
  | [] => none

def readNumber (what : String) (padded : Bool) (low high : Nat) (s : List Char) :
    Except Trouble (Nat × List Char) :=
  match number? padded s with
  | some (n, rest) =>
    if low ≤ n && n ≤ high then .ok (n, rest) else .error (.outOfRange what)
  | none => .error (.mismatch s)

/-- A fraction of a second behind a point or a comma, as nanoseconds. -/
def fraction (s : List Char) : Nat × List Char :=
  match s with
  | mark :: d :: rest =>
    if (mark = '.' || mark = ',') && Text.isDigit d then
      let digits := (d :: rest).takeWhile Text.isDigit
      let known := digits.take 9
      (Text.digitsValue known * Nat.pow 10 (9 - known.length), (d :: rest).dropWhile Text.isDigit)
    else (0, s)
  | s => (0, s)

/-- Moves over a fixed text. A blank in it stands for any number of blanks. -/
def skipText : List Char → List Char → Except Trouble (List Char)
  | [], s => .ok s
  | ' ' :: part, s =>
    if s.isEmpty || s.head? = some ' ' then skipText part (s.dropWhile (· = ' '))
    else .error (.mismatch s)
  | p :: part, c :: s => if p = c then skipText part s else .error (.mismatch (c :: s))
  | _ :: _, [] => .error (.mismatch [])

/-- The distance of a zone from the common one. Whole days and hours are admitted as well. -/
def readZone (letter colon : Bool) (s : List Char) : Except Trouble (Int × List Char) :=
  let offset (sign a b c d : Char) (rest : List Char) : Except Trouble (Int × List Char) :=
    match number? true [a, b], number? true [c, d] with
    | some (h, _), some (m, _) =>
      if 0x80 ≤ sign.toNat then .error (.mismatch s)
      else if 60 < m then .error (.outOfRange "time zone offset minute")
      else if 24 < h then .error (.outOfRange "time zone offset hour")
      else if sign = '+' then .ok ((h * 60 + m) * 60, rest)
      else if sign = '-' then .ok (-((h * 60 + m) * 60), rest)
      else .error (.mismatch s)
    | some (h, _), none =>
      if 24 < h && sign.toNat < 0x80 then .error (.outOfRange "time zone offset hour")
      else .error (.mismatch s)
    | none, _ => .error (.mismatch s)
  match s with
  | 'Z' :: rest => if letter then .ok (0, rest) else .error (.mismatch s)
  | sign :: a :: b :: c :: d :: rest =>
    if colon then
      match rest with
      | e :: rest => if c = ':' then offset sign a b d e rest else .error (.mismatch s)
      | [] => .error (.mismatch s)
    else offset sign a b c d rest
  | _ => .error (.mismatch s)

def readPart (p : Part) (m : Moment) (s : List Char) : Except Trouble (Moment × List Char) :=
  match p with
  | .year =>
    let digits := s.take 4
    if digits.length = 4 && digits.all Text.isDigit then
      .ok ({ m with year := Text.digitsValue digits }, s.drop 4)
    else .error (.mismatch s)
  | .month padded => (readNumber "month" padded 1 12 s).map fun (n, s) => ({ m with month := n }, s)
  | .day padded => (readNumber "day" padded 0 99 s).map fun (n, s) => ({ m with day := n }, s)
  | .hour => (readNumber "hour" false 0 23 s).map fun (n, s) => ({ m with hour := n }, s)
  | .minute padded => (readNumber "minute" padded 0 59 s).map fun (n, s) => ({ m with minute := n }, s)
  | .second padded =>
    (readNumber "second" padded 0 59 s).map fun (n, s) =>
      let (nanos, s) := fraction s
      ({ m with second := n, nanosecond := nanos }, s)
  | .fraction => .ok (m, s)
  | .zone letter colon => (readZone letter colon s).map fun (n, s) => ({ m with offset := n }, s)
  | .text t => (skipText t.toList s).map fun s => (m, s)

def readParts (layout : Layout) : List Part → Moment → List Char → Except Misread Moment
  | [], m, s =>
    if !s.isEmpty then .error (.extraText (String.ofList s))
    else if !m.isReal then .error (.outOfRange "day")
    else .ok m
  | p :: parts, m, s =>
    match readPart p m s with
    | .ok (m, s) => readParts layout parts m s
    | .error (.mismatch rest) => .error (.mismatch layout.shown (String.ofList rest) p.shown)
    | .error (.outOfRange what) => .error (.outOfRange what)

def read (layout : Layout) (time : String) : Except Misread Moment :=
  readParts layout layout {} time.toList

def read? (layout : Layout) (time : String) : Option Moment := (layout.read time).toOption

end Layout

end Taproom.Calendar
