import Taproom.Text.Cut
import Taproom.Text.Number

/-!
The words of a shell script. A word is a list of parts, some of which only get their text when the
script runs.
-/

namespace Taproom.Shell

inductive Part where
  | text (s : String) (quoted : Bool)
  /-- The value of a variable. `form` says what to do with it, `other` is the text behind that. -/
  | value (name form other : String) (quoted : Bool)
  | output (script : String) (quoted : Bool)
  | number (sum : String) (quoted : Bool)
  deriving DecidableEq, Repr

abbrev Word := List Part

def plain? : Word → Option String
  | [.text s false] => some s
  | _ => none

def isNameStart (c : Char) : Bool := c.isAlpha || c = '_'

def isNameChar (c : Char) : Bool := isNameStart c || Text.isDigit c

def isName (s : List Char) : Bool := s.head?.any isNameStart && s.all isNameChar

def isSpecial (c : Char) : Bool := Text.isDigit c || "$?#@*!-".toList.contains c

def isSpace (c : Char) : Bool := c = ' ' || c = '\t'

def endsWord (c : Char) : Bool := isSpace c || "\n;&|<>()".toList.contains c

def tick : Char := Char.ofNat 96

inductive Quotes where
  | none
  | single
  | double
  deriving DecidableEq

def upTo (opening closing : Char) (depth : Nat) (q : Quotes) (acc : List Char) :
    List Char → Option (List Char × List Char)
  | '\\' :: c :: rest =>
    if q = .single then upTo opening closing depth (if c = '\'' then .none else q) (c :: '\\' :: acc) rest
    else upTo opening closing depth q (c :: '\\' :: acc) rest
  | '\'' :: rest =>
    let q := match q with
      | .none => .single
      | .single => .none
      | .double => .double
    upTo opening closing depth q ('\'' :: acc) rest
  | '"' :: rest =>
    let q := match q with
      | .none => .double
      | .single => .single
      | .double => .none
    upTo opening closing depth q ('"' :: acc) rest
  | c :: rest =>
    if q ≠ .none then upTo opening closing depth q (c :: acc) rest
    else if c = closing then
      if depth = 0 then some (acc.reverse, rest)
      else upTo opening closing (depth - 1) q (c :: acc) rest
    else upTo opening closing (if c = opening then depth + 1 else depth) q (c :: acc) rest
  | [] => none

def forms : List String := [":-", ":=", ":+", ":?", "##", "%%", "-", "=", "+", "?", "#", "%"]

def readBraced (quoted : Bool) (s : List Char) : Option Part :=
  match s with
  | '#' :: name@(_ :: _) =>
    if isName name then some (.value (String.ofList name) "length" "" quoted) else none
  | c :: rest =>
    let (name, rest) := if isSpecial c then ([c], rest) else s.span isNameChar
    if name.isEmpty then none
    else if rest.isEmpty then some (.value (String.ofList name) "" "" quoted)
    else
      (forms.find? fun f => startsWith (String.ofList rest) f).map fun f =>
        .value (String.ofList name) f (trimPrefix (String.ofList rest) f) quoted
  | [] => none

def readDollar (quoted : Bool) (s : List Char) : Option (Part × List Char) :=
  match s with
  | '(' :: '(' :: rest => do
    let (sum, rest) ← upTo '(' ')' 0 .none [] rest
    match rest with
    | ')' :: rest => some (.number (String.ofList sum) quoted, rest)
    | _ => none
  | '(' :: rest => do
    let (script, rest) ← upTo '(' ')' 0 .none [] rest
    some (.output (String.ofList script) quoted, rest)
  | '\x7b' :: rest => do
    let (inner, rest) ← upTo '\x7b' '\x7d' 0 .none [] rest
    some (← readBraced quoted inner, rest)
  | c :: rest =>
    if isNameStart c then
      let (name, rest) := s.span isNameChar
      some (.value (String.ofList name) "" "" quoted, rest)
    else if isSpecial c then some (.value (String.singleton c) "" "" quoted, rest)
    else some (.text "$" quoted, s)
  | [] => some (.text "$" quoted, [])

def addChar (w : Word) (c : Char) (quoted : Bool) : Word :=
  match w with
  | .text s q :: rest => if q = quoted then .text (s.push c) q :: rest else .text (.singleton c) quoted :: w
  | _ => .text (.singleton c) quoted :: w

def readParts (fuel : Nat) (quoted : Bool) (w : Word) (s : List Char) : Option (Word × List Char) :=
  match fuel with
  | 0 => none
  | fuel + 1 =>
    match s with
    | [] => if quoted then none else some (w.reverse, [])
    | '\\' :: '\n' :: rest => readParts fuel quoted w rest
    | '\\' :: c :: rest =>
      if quoted && !("$\"\\".toList.contains c || c = tick) then
        readParts fuel quoted (addChar (addChar w '\\' true) c true) rest
      else readParts fuel quoted (addChar w c true) rest
    | '"' :: rest => readParts fuel (!quoted) (if quoted then w else .text "" true :: w) rest
    | '$' :: rest => do
      let (part, rest) ← readDollar quoted rest
      readParts fuel quoted (part :: w) rest
    | c :: rest =>
      if c = tick then
        let (script, rest) := rest.span (· ≠ tick)
        match rest with
        | _ :: rest => readParts fuel quoted (.output (String.ofList script) quoted :: w) rest
        | [] => none
      else if c = '\'' && !quoted then
        let (inner, rest) := rest.span (· ≠ '\'')
        match rest with
        | _ :: rest => readParts fuel quoted (.text (String.ofList inner) true :: w) rest
        | [] => none
      else if !quoted && endsWord c then some (w.reverse, s)
      else readParts fuel quoted (addChar w c quoted) rest

def readWord (s : List Char) : Option (Word × List Char) := readParts (s.length + 1) false [] s

end Taproom.Shell
