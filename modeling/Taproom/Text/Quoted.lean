import Taproom.Text.Utf8
import Taproom.Unicode.Category

/-!
Text between double quotes, with a backslash escape for every character that would not print.
-/

namespace Taproom.Text

/-- Characters that show as themselves: letters, marks, numbers, punctuation, symbols and the
blank. -/
def isPrintable (c : Char) : Bool :=
  let n := c.toNat
  if n < 0x7f then 0x20 ≤ n else Unicode.graphic.has n

def hex (width n : Nat) : List Char :=
  let digits := Nat.toDigits 16 n
  List.replicate (width - digits.length) '0' ++ digits

def escape (c : Char) : List Char :=
  if c = '"' then ['\\', '"']
  else if c = '\\' then ['\\', '\\']
  else if isPrintable c then [c]
  else if c = '\x07' then ['\\', 'a']
  else if c = '\x08' then ['\\', 'b']
  else if c = '\x0c' then ['\\', 'f']
  else if c = '\n' then ['\\', 'n']
  else if c = '\r' then ['\\', 'r']
  else if c = '\t' then ['\\', 't']
  else if c = '\x0b' then ['\\', 'v']
  else if c.toNat < 0x80 then '\\' :: 'x' :: hex 2 c.toNat
  else if c.toNat < 0x10000 then '\\' :: 'u' :: hex 4 c.toNat
  else '\\' :: 'U' :: hex 8 c.toNat

/-- How bytes stand inside the quotes; those that are no part of a character show as digits. -/
def escapeBytes : List UInt8 → List Char
  | [] => []
  | a :: rest =>
    match Utf8.first? a rest with
    | some (c, n) => escape c ++ escapeBytes (rest.drop n)
    | none => '\\' :: 'x' :: hex 2 a.toNat ++ escapeBytes rest
termination_by l => l.length
decreasing_by
  all_goals (simp only [List.length_cons, List.length_drop] at *; omega)

end Taproom.Text

namespace Taproom

def quoted (s : String) : String :=
  String.ofList ('"' :: s.toList.flatMap Text.escape ++ ['"'])

def quotedBytes (b : List UInt8) : String :=
  String.ofList ('"' :: Text.escapeBytes b ++ ['"'])

end Taproom
