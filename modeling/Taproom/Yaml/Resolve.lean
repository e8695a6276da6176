import Taproom.Calendar.Layout
import Taproom.Text.Real

/-!
What a plain scalar stands for: nothing, a truth value, a number, a date or text.
-/

namespace Taproom.Yaml

def nullTag : String := "!!null"
def boolTag : String := "!!bool"
def strTag : String := "!!str"
def intTag : String := "!!int"
def floatTag : String := "!!float"
def timestampTag : String := "!!timestamp"
def seqTag : String := "!!seq"
def mapTag : String := "!!map"
def binaryTag : String := "!!binary"
def mergeTag : String := "!!merge"

def shortTag (tag : String) : String :=
  let long := "tag:yaml.org,2002:"
  if tag.startsWith long then "!!" ++ (tag.drop long.length).toString else tag

/-- A resolved scalar. A number with a fraction or an exponent is kept as the word that conversion
leaves, or none when it is too large or no number. -/
inductive Value where
  | null
  | bool (b : Bool)
  | int (n : Int)
  | float (whole : Option Int)
  | timestamp
  | str
  deriving DecidableEq, Repr

namespace Value

def tag : Value → String
  | null => nullTag
  | bool _ => boolTag
  | int _ => intTag
  | float _ => floatTag
  | timestamp => timestampTag
  | str => strTag

end Value

namespace Resolve

def digitValue? (base : Nat) (c : Char) : Option Nat :=
  let n := if c.isDigit then c.toNat - '0'.toNat
    else if 'a' ≤ c && c ≤ 'z' then c.toNat - 'a'.toNat + 10
    else if 'A' ≤ c && c ≤ 'Z' then c.toNat - 'A'.toNat + 10
    else 99
  if n < base then some n else none

def natInBase? (base : Nat) (s : List Char) : Option Nat :=
  if s.isEmpty then none
  else s.foldlM (fun n c => (digitValue? base c).map (base * n + ·)) 0

/-- A number whose base its first characters tell: hexadecimal, octal, binary or decimal. -/
def natLiteral? (s : List Char) : Option Nat :=
  match s with
  | '0' :: 'x' :: r | '0' :: 'X' :: r => natInBase? 16 r
  | '0' :: 'o' :: r | '0' :: 'O' :: r => natInBase? 8 r
  | '0' :: 'b' :: r | '0' :: 'B' :: r => natInBase? 2 r
  | ['0'] => some 0
  | '0' :: r => natInBase? 8 r
  | s => natInBase? 10 s

def inRange? (negative : Bool) (n : Nat) : Option Int :=
  if negative then (if n ≤ Nat.pow 2 63 then some (-(n : Int)) else none)
  else if n < Nat.pow 2 64 then some n else none

def int? (s : List Char) : Option Int :=
  match s with
  | '-' :: r => (natLiteral? r).bind (inRange? true)
  | '+' :: r => (natLiteral? r).bind fun n => if n < Nat.pow 2 63 then some n else none
  | s => (natLiteral? s).bind (inRange? false)

def signedBase? (s : List Char) : Option Int :=
  match s with
  | '-' :: '0' :: 'b' :: r => (natInBase? 2 r).bind (inRange? true)
  | '-' :: '0' :: 'o' :: r => (natInBase? 8 r).bind (inRange? true)
  | '0' :: 'b' :: '-' :: r => (natInBase? 2 r).bind (inRange? true)
  | '0' :: 'b' :: '+' :: r => (natInBase? 2 r).bind fun n => if n < Nat.pow 2 63 then some n else none
  | '0' :: 'o' :: '-' :: r => (natInBase? 8 r).bind (inRange? true)
  | '0' :: 'o' :: '+' :: r => (natInBase? 8 r).bind fun n => if n < Nat.pow 2 63 then some n else none
  | _ => none

/-- The word that a number becomes when its fraction is cut off. One that is too small, or just too
large, becomes the least word; one beyond that becomes none. -/
def word? (negative : Bool) (size : Nat) : Option Int :=
  let n : Int := if negative then -size else size
  if Text.maxInt + 1 < n then none
  else if n = Text.maxInt + 1 ∨ n < Text.minInt then some Text.minInt
  else some n

def whole? (d : Real.Decimal) : Option (Option Int) :=
  d.size?.map fun x => word? d.negative x.floor

def timestampLayouts : List Calendar.Layout :=
  let date : Calendar.Layout := [.year, .text "-", .month false, .text "-", .day false]
  let clock : Calendar.Layout := [.hour, .text ":", .minute false, .text ":", .second false, .fraction]
  [date ++ [.text "T"] ++ clock ++ [.zone true true], date ++ [.text "t"] ++ clock ++ [.zone true true],
   date ++ [.text " "] ++ clock, date]

def isTimestamp (s : List Char) : Bool :=
  (s.takeWhile Text.isDigit).length = 4 && (s.drop 4).head? = some '-' &&
    timestampLayouts.any fun l => (l.read? (String.ofList s)).isSome

def pointFloat? (s : List Char) : Option (Option Int) :=
  (Real.decimal? s).bind whole?

def numeric (s : List Char) (dated : Bool) : Value :=
  if dated && isTimestamp s then .timestamp
  else
    let plain := s.filter (· ≠ '_')
    match int? plain with
    | some n => .int n
    | none =>
      match (Real.decimal? plain).bind whole? with
      | some whole => .float whole
      | none =>
        match signedBase? plain with
        | some n => .int n
        | none => .str

end Resolve

/-- What an untagged plain scalar stands for; `dated` admits dates. -/
def resolveAs (dated : Bool) (text : String) : Value :=
  if ["", "~", "null", "Null", "NULL"].contains text then .null
  else if ["true", "True", "TRUE"].contains text then .bool true
  else if ["false", "False", "FALSE"].contains text then .bool false
  else if [".nan", ".NaN", ".NAN", ".inf", ".Inf", ".INF", "+.inf", "+.Inf", "+.INF"].contains text then
    .float none
  else if ["-.inf", "-.Inf", "-.INF"].contains text then .float (some Text.minInt)
  else
    match text.toList with
    | '.' :: r =>
      let s := '.' :: r
      if Real.underscoresFit s then
        match Resolve.pointFloat? (s.filter (· ≠ '_')) with
        | some whole => .float whole
        | none => .str
      else .str
    | c :: r =>
      if c.isDigit || c == '+' || c == '-' then Resolve.numeric (c :: r) dated else .str
    | [] => .null

def resolve (text : String) : Value := resolveAs true text

end Taproom.Yaml
