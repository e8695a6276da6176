import Taproom.Text.Binary
import Taproom.Text.Number

/-!
Spans of time in nanoseconds, written as numbers with units: `1h30m`, `2.5s`.
-/

namespace Taproom.Duration

def unit? (s : List Char) : Option Nat :=
  match String.ofList s with
  | "ns" => some 1
  | "us" | "µs" | "μs" => some 1000
  | "ms" => some 1000000
  | "s" => some 1000000000
  | "m" => some 60000000000
  | "h" => some 3600000000000
  | _ => none

def isNumeric (c : Char) : Bool := c == '.' || Text.isDigit c

/-- The digits of a fraction that fit a word, as a number, and how many they are. -/
def leading (n count : Nat) : List Char → Nat × Nat
  | [] => (n, count)
  | d :: rest =>
    let more := 10 * n + Text.digitsValue [d]
    if n > (Nat.pow 2 63 - 1) / 10 || more > Nat.pow 2 63 then (n, count)
    else leading more (count + 1) rest

def scale : Nat → Binary
  | 0 => .ofNat 1
  | n + 1 => (scale n).mul (.ofNat 10)

/-- A fraction of a unit, rounded at each step. After sixty zeros nothing of a unit is left. -/
def part (fraction : List Char) (unit : Nat) : Nat :=
  let (n, count) := leading 0 0 fraction
  if count > 60 then 0
  else ((Binary.ofNat n).mul ((Binary.ofNat unit).div (scale count))).floor

/-- Adds up the numbers with their units; there must be one at least. -/
def sum? (fuel : Nat) (s : List Char) (total : Nat) : Option Nat :=
  match fuel with
  | 0 => none
  | fuel + 1 =>
    let whole := s.takeWhile Text.isDigit
    let s := s.dropWhile Text.isDigit
    let (fraction, s) := match s with
      | '.' :: r => (r.takeWhile Text.isDigit, r.dropWhile Text.isDigit)
      | s => ([], s)
    if whole.isEmpty && fraction.isEmpty then none
    else
      let name := s.takeWhile fun c => !isNumeric c
      let s := s.dropWhile fun c => !isNumeric c
      match unit? name with
      | none => none
      | some unit =>
        let v := Text.digitsValue whole * unit + part fraction unit
        if v > Nat.pow 2 63 || total + v > Nat.pow 2 63 then none
        else if s.isEmpty then some (total + v)
        else sum? fuel s (total + v)

def parse? (s : String) : Option Int :=
  let (negative, body) := match s.toList with
    | '-' :: r => (true, r)
    | '+' :: r => (false, r)
    | cs => (false, cs)
  if body == ['0'] then some 0
  else
    match sum? (body.length + 1) body 0 with
    | some d =>
      if negative then some (-(d : Int)) else if d < Nat.pow 2 63 then some d else none
    | none => none

end Taproom.Duration
