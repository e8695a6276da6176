/-!
Bytes written with the sixty-four characters of the standard alphabet.
-/

namespace Taproom.Base64

def alphabet : String := "ABCDEFGHIJKLMNOPQRSTUVWXYZabcdefghijklmnopqrstuvwxyz0123456789+/"

def digit? (c : Char) : Option Nat :=
  if 'A' ≤ c && c ≤ 'Z' then some (c.toNat - 'A'.toNat)
  else if 'a' ≤ c && c ≤ 'z' then some (c.toNat - 'a'.toNat + 26)
  else if '0' ≤ c && c ≤ '9' then some (c.toNat - '0'.toNat + 52)
  else if c = '+' then some 62
  else if c = '/' then some 63
  else none

def groupBytes (digits : List Nat) : List UInt8 :=
  match digits with
  | [a, b, c, d] =>
    [(a * 4 + b / 16).toUInt8, (b * 16 + c / 4).toUInt8, (c * 64 + d).toUInt8]
  | [a, b, c] => [(a * 4 + b / 16).toUInt8, (b * 16 + c / 4).toUInt8]
  | [a, b] => [(a * 4 + b / 16).toUInt8]
  | _ => []

def isBreak (b : UInt8) : Bool := b = 10 || b = 13

def skipBreaks (place : Nat) : List UInt8 → Nat × List UInt8
  | [] => (place, [])
  | b :: rest => if isBreak b then skipBreaks (place + 1) rest else (place, b :: rest)

/-- Reads what follows a sign of padding, of which another one is due after two digits. Nothing but
line breaks may come afterwards. -/
def readPadding (group : List Nat) (place : Nat) (rest : List UInt8) : Except Nat (List UInt8) :=
  let finish (place : Nat) (rest : List UInt8) : Except Nat (List UInt8) :=
    match skipBreaks place rest with
    | (_, []) => .ok (groupBytes group)
    | (place, _) => .error place
  match group.length with
  | 2 =>
    match skipBreaks place rest with
    | (place, []) => .error place
    | (place, b :: rest) => if b = 61 then finish (place + 1) rest else .error (place - 1)
  | 3 => finish place rest
  | _ => .error (place - 1)

/-- Reads groups of four digits, the last one padded; line breaks are passed over. An error tells
the place of the trouble. -/
def decodeFrom (place : Nat) (group : List Nat) (acc : List UInt8) :
    List UInt8 → Except Nat (List UInt8)
  | [] => if group.isEmpty then .ok acc.reverse else .error (place - group.length)
  | b :: rest =>
    match digit? (Char.ofNat b.toNat) with
    | some d =>
      let group := group ++ [d]
      if group.length = 4 then decodeFrom (place + 1) [] ((groupBytes group).reverse ++ acc) rest
      else decodeFrom (place + 1) group acc rest
    | none =>
      if isBreak b then decodeFrom (place + 1) group acc rest
      else if b = 61 then (readPadding group (place + 1) rest).map (acc.reverse ++ ·)
      else .error place

def decodeBytes (bytes : List UInt8) : Except Nat (List UInt8) := decodeFrom 0 [] [] bytes

def decode? (s : String) : Option ByteArray :=
  (decodeBytes s.toUTF8.data.toList).toOption.map fun l => ⟨l.toArray⟩

def symbol (n : Nat) : Char := alphabet.toList.getD (n % 64) 'A'

def encodeBytes : List UInt8 → List Char
  | [] => []
  | [a] =>
    let a := a.toNat
    [symbol (a / 4), symbol (a * 16), '=', '=']
  | [a, b] =>
    let a := a.toNat
    let b := b.toNat
    [symbol (a / 4), symbol (a * 16 + b / 16), symbol (b * 4), '=']
  | a :: b :: c :: rest =>
    let x := a.toNat
    let y := b.toNat
    let z := c.toNat
    symbol (x / 4) :: symbol (x % 4 * 16 + y / 16) :: symbol (y % 16 * 4 + z / 64) :: symbol z ::
      encodeBytes rest

def encode (b : ByteArray) : String := String.ofList (encodeBytes b.toList)

end Taproom.Base64
