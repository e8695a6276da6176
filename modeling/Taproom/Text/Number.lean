/-!
Whole numbers written in decimal, within the range of a sixty-four bit word.
-/

namespace Taproom.Text

inductive NumberFault where
  | malformed
  | outOfRange
  deriving DecidableEq, Repr

def isDigit (c : Char) : Bool := '0' ≤ c && c ≤ '9'

def digitsValue (s : List Char) : Nat :=
  s.foldl (fun n c => 10 * n + (c.toNat - '0'.toNat)) 0

def maxInt : Int := 9223372036854775807
def minInt : Int := -9223372036854775808

def readInt (s : List Char) : Except NumberFault Int :=
  let (negative, digits) := match s with
    | '-' :: rest => (true, rest)
    | '+' :: rest => (false, rest)
    | _ => (false, s)
  if digits.isEmpty || !digits.all isDigit then .error .malformed
  else
    let n : Int := digitsValue digits
    let n := if negative then -n else n
    if minInt ≤ n && n ≤ maxInt then .ok n else .error .outOfRange

def readInt? (s : List Char) : Option Int := (readInt s).toOption

end Taproom.Text
