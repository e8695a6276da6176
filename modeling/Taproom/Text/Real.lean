import Taproom.Text.Binary
import Taproom.Text.Number

/-!
Numbers with a fraction or an exponent, as they are written.
-/

namespace Taproom.Real

structure Decimal where
  negative : Bool
  digits : Nat
  exponent : Int

def decimal? (s : List Char) : Option Decimal :=
  let (negative, s) := match s with
    | '-' :: r => (true, r)
    | '+' :: r => (false, r)
    | s => (false, s)
  let whole := s.takeWhile Char.isDigit
  let s := s.dropWhile Char.isDigit
  let (fraction, s) := match s with
    | '.' :: r => (r.takeWhile Char.isDigit, r.dropWhile Char.isDigit)
    | s => ([], s)
  if whole.isEmpty && fraction.isEmpty then none
  else
    let digits := Text.digitsValue (whole ++ fraction)
    let shift : Int := -(fraction.length : Int)
    match s with
    | [] => some ⟨negative, digits, shift⟩
    | e :: r =>
      if e = 'e' ∨ e = 'E' then
        let (down, r) := match r with
          | '-' :: r => (true, r)
          | '+' :: r => (false, r)
          | r => (false, r)
        if r.isEmpty || !r.all Char.isDigit then none
        else
          let n : Int := Text.digitsValue r
          some ⟨negative, digits, shift + if down then -n else n⟩
      else none

/-- The nearest binary number to the size of a decimal, or none when it is too large for the usual
range. Sizes far outside the range are told by the number of digits alone. -/
def Decimal.size? (d : Decimal) : Option Binary :=
  if d.digits = 0 then some (.ofNat 0)
  else
    let places : Int := (toString d.digits).length + d.exponent
    if places > 320 then none
    else if places < -400 then some (.ofNat 0)
    else
      let x := if d.exponent < 0 then Binary.nearest d.digits (Nat.pow 10 (-d.exponent).toNat)
        else .nearest (d.digits * Nat.pow 10 d.exponent.toNat) 1
      if x.floor ≥ Nat.pow 2 1024 then none else some x

def isHexDigit (c : Char) : Bool :=
  Text.isDigit c || ('a' ≤ c && c ≤ 'f') || ('A' ≤ c && c ≤ 'F')

def hexValue (s : List Char) : Nat :=
  s.foldl (fun n c => 16 * n + digit c) 0
where
  digit (c : Char) : Nat :=
    if Text.isDigit c then c.toNat - '0'.toNat
    else if 'a' ≤ c then c.toNat - 'a'.toNat + 10
    else c.toNat - 'A'.toNat + 10

/-- Whether the underscores of an unsigned number stand between digits, or behind the letters that
tell its base. -/
def underscoresFit (s : List Char) : Bool :=
  let (based, isHex, digits) := match s with
    | '0' :: b :: rest =>
      if "bBoOxX".toList.contains b then (true, b = 'x' || b = 'X', rest) else (false, false, s)
    | _ => (false, false, s)
  go isHex based digits
where
  go (isHex : Bool) : Bool → List Char → Bool
    | _, [] => true
    | after, '_' :: rest =>
      let more := match rest with
        | c :: _ => Text.isDigit c || (isHex && isHexDigit c)
        | [] => false
      after && more && go isHex false rest
    | _, c :: rest => go isHex (Text.isDigit c || (isHex && isHexDigit c)) rest

/-- A number in base sixteen with a binary exponent, as mantissa and exponent. -/
def hexadecimal? (s : List Char) : Option (Nat × Int) :=
  let whole := s.takeWhile isHexDigit
  let s := s.dropWhile isHexDigit
  let (fraction, s) := match s with
    | '.' :: r => (r.takeWhile isHexDigit, r.dropWhile isHexDigit)
    | s => ([], s)
  match s with
  | p :: r =>
    if (whole.isEmpty && fraction.isEmpty) || !(p = 'p' || p = 'P') then none
    else
      let (down, r) := match r with
        | '-' :: r => (true, r)
        | '+' :: r => (false, r)
        | r => (false, r)
      if r.isEmpty || !r.all Text.isDigit then none
      else
        let n : Int := Text.digitsValue r
        some (hexValue (whole ++ fraction), (if down then -n else n) - 4 * fraction.length)
  | [] => none

def isInRange (mantissa : Nat) (exponent : Int) : Bool :=
  let bits : Int := Nat.log2 mantissa + exponent
  if mantissa = 0 || bits < 1000 then true
  else if bits > 1024 then false
  else (Binary.nearest (mantissa * Nat.pow 2 exponent.toNat) (Nat.pow 2 (-exponent).toNat)).floor
    < Nat.pow 2 1024

def isNamed (signed : Bool) (s : List Char) : Bool :=
  let s := s.map fun c => if 'A' ≤ c && c ≤ 'Z' then Char.ofNat (c.toNat + 32) else c
  s = "inf".toList || s = "infinity".toList || (!signed && s = "nan".toList)

def check (s : List Char) : Except Text.NumberFault Unit :=
  let (signed, body) := match s with
    | '-' :: r => (true, r)
    | '+' :: r => (true, r)
    | s => (false, s)
  let plain := body.filter (· ≠ '_')
  if isNamed signed body then .ok ()
  else if !underscoresFit body then .error .malformed
  else
    match plain with
    | '0' :: x :: r =>
      if (x = 'x' || x = 'X') && !r.isEmpty then
        match hexadecimal? r with
        | some (m, e) => if isInRange m e then .ok () else .error .outOfRange
        | none => .error .malformed
      else decimal plain
    | _ => decimal plain
where
  decimal (s : List Char) : Except Text.NumberFault Unit :=
    if s.head? = some '-' || s.head? = some '+' then .error .malformed
    else
      match decimal? s with
      | some d => if d.size?.isSome then .ok () else .error .outOfRange
      | none => .error .malformed

end Taproom.Real
