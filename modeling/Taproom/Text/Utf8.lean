/-!
Bytes read as text. A byte that is no part of a character stands for a replacement character.
-/

namespace Taproom.Utf8

def isTail (b : UInt8) : Bool := 0x80 ≤ b && b < 0xc0

def char? (code : Nat) : Option Char :=
  if h : code.isValidChar then some (Char.ofNatAux code h) else none

/-- The character that a first byte and those behind it spell, and how many of those it takes. The
shortest spelling is the only one. -/
def first? (a : UInt8) (rest : List UInt8) : Option (Char × Nat) :=
  let lead := a.toNat
  let bits (b : UInt8) : Nat := b.toNat % 64
  if lead < 0x80 then some (Char.ofNat lead, 0)
  else
    match rest with
    | b :: rest =>
      if !isTail b then none
      else if 0xc2 ≤ lead && lead < 0xe0 then
        (char? ((lead % 32) * 64 + bits b)).map fun c => (c, 1)
      else
        match rest with
        | c :: rest =>
          if !isTail c then none
          else if 0xe0 ≤ lead && lead < 0xf0 then
            let code := (lead % 16 * 64 + bits b) * 64 + bits c
            if code < 0x800 then none else (char? code).map fun ch => (ch, 2)
          else
            match rest with
            | d :: _ =>
              if !isTail d || lead < 0xf0 || 0xf5 ≤ lead then none
              else
                let code := ((lead % 8 * 64 + bits b) * 64 + bits c) * 64 + bits d
                if code < 0x10000 then none else (char? code).map fun ch => (ch, 3)
            | [] => none
        | [] => none
    | [] => none

/-- The characters of some bytes, of which the first `n` belong to the character before them. -/
def chars? : (n : Nat) → List UInt8 → List (Option Char)
  | _, [] => []
  | n + 1, _ :: rest => chars? n rest
  | 0, a :: rest =>
    match first? a rest with
    | some (c, n) => some c :: chars? n rest
    | none => none :: chars? 0 rest

def decode (bytes : List UInt8) : List Char := (chars? 0 bytes).map (·.getD '�')

def text (bytes : List UInt8) : String := String.ofList (decode bytes)

def decode? (bytes : List UInt8) : Option (List Char) := (chars? 0 bytes).mapM id

def encode (s : List Char) : List UInt8 := (String.ofList s).toUTF8.data.toList

end Taproom.Utf8
