/-!
A place in a YAML text: what is still to read, and its line, column and index.
-/

namespace Taproom.Yaml

def isBreak (c : Char) : Bool :=
  c == '\n' || c == '\r' || c == '\u0085' || c == '\u2028' || c == '\u2029'

def isSpace (c : Char) : Bool := c == ' ' || c == '\t'

def isAllowed (c : Char) : Bool :=
  let n := c.toNat
  n == 0x09 || n == 0x0a || n == 0x0d || (0x20 ≤ n && n ≤ 0x7e) || n == 0x85 ||
  (0xa0 ≤ n && n ≤ 0xfffd) || 0x10000 ≤ n

def isNameChar (c : Char) : Bool :=
  c.isAlphanum || c == '_' || c == '-'

/-- `bound` is at least the number of characters that are left. -/
structure Cursor where
  rest : List Char
  bound : Nat
  line : Nat := 0
  column : Nat := 0
  index : Nat := 0
  deriving Inhabited

namespace Cursor

def start (s : List Char) : Cursor where
  rest := s
  bound := s.length

def peek (c : Cursor) : Option Char := c.rest.head?

def peekAt (c : Cursor) (n : Nat) : Option Char := c.rest[n]?

def atEnd (c : Cursor) : Bool := c.rest.isEmpty

def sees (c : Cursor) (ch : Char) : Bool := c.peek == some ch

def blankAt (c : Cursor) (n : Nat) : Bool :=
  match c.peekAt n with
  | none => true
  | some ch => isSpace ch || isBreak ch

def breakHere (c : Cursor) : Bool := c.peek.any isBreak

def spaceHere (c : Cursor) : Bool := c.peek.any isSpace

def advance (c : Cursor) (n : Nat) : Cursor :=
  { c with rest := c.rest.drop n, column := c.column + n, index := c.index + n }

def skipWhile (c : Cursor) (p : Char → Bool) : Cursor :=
  c.advance (c.rest.takeWhile p).length

def readWhile (c : Cursor) (p : Char → Bool) : List Char × Cursor :=
  let s := c.rest.takeWhile p
  (s, c.advance s.length)

/-- Reads one line break; all but the Unicode separators become a line feed. -/
def readBreak (c : Cursor) : List Char × Cursor :=
  let next (n : Nat) : Cursor :=
    { c with rest := c.rest.drop n, line := c.line + 1, column := 0, index := c.index + n }
  match c.rest with
  | '\r' :: '\n' :: _ => (['\n'], next 2)
  | ch :: _ =>
    if ch == '\u2028' || ch == '\u2029' then ([ch], next 1)
    else if isBreak ch then (['\n'], next 1)
    else ([], c)
  | [] => ([], c)

def skipBreak (c : Cursor) : Cursor := c.readBreak.2

def documentMark (c : Cursor) (ch : Char) : Bool :=
  c.column == 0 && c.peekAt 0 == some ch && c.peekAt 1 == some ch && c.peekAt 2 == some ch &&
    c.blankAt 3

end Cursor

end Taproom.Yaml
