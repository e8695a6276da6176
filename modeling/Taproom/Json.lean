import Taproom.Text.Number
import Taproom.Text.Quoted

/-!
JSON values, their text and its reader. Objects keep the order of their keys. A reader's complaint
names the first character that cannot continue a value.
-/

namespace Taproom

inductive Json where
  | null
  | bool (b : Bool)
  | num (digits : String)
  | str (s : String)
  | arr (items : List Json)
  | obj (members : List (String × Json))
  deriving Inhabited, Repr

namespace Json

def ofInt (n : Int) : Json := .num (toString n)

def ofNames (l : List String) : Json := .arr (l.map .str)

def member? (key : String) : Json → Option Json
  | .obj members => (members.reverse.find? (·.1 = key)).map (·.2)
  | _ => none

/-- How a character stands in a text. Characters with a meaning in markup are escaped as well. -/
def escapeChar (c : Char) : List Char :=
  if c = '"' then ['\\', '"']
  else if c = '\\' then ['\\', '\\']
  else if c = '\n' then ['\\', 'n']
  else if c = '\r' then ['\\', 'r']
  else if c = '\t' then ['\\', 't']
  else if c = '\x08' then ['\\', 'b']
  else if c = '\x0c' then ['\\', 'f']
  else if c.toNat < 0x20 || c = '<' || c = '>' || c = '&' || c = '\u2028' || c = '\u2029' then
    ['\\', 'u'] ++ Text.hex 4 c.toNat
  else [c]

def renderText (s : String) : String :=
  String.ofList (['"'] ++ s.toList.flatMap escapeChar ++ ['"'])

mutual

def render : Json → String
  | .null => "null"
  | .bool true => "true"
  | .bool false => "false"
  | .num digits => digits
  | .str s => renderText s
  | .arr items => "[" ++ renderItems items ++ "]"
  | .obj members => "\x7b" ++ renderMembers members ++ "\x7d"

def renderItems : List Json → String
  | [] => ""
  | [v] => render v
  | v :: rest => render v ++ "," ++ renderItems rest

def renderMembers : List (String × Json) → String
  | [] => ""
  | [(k, v)] => renderText k ++ ":" ++ render v
  | (k, v) :: rest => renderText k ++ ":" ++ render v ++ "," ++ renderMembers rest

end

mutual

def renderIndented (depth : Nat) : Json → String
  | .arr [] => "[]"
  | .obj [] => "\x7b\x7d"
  | .arr items => "[\n" ++ indentedItems (depth + 1) items ++ "\n" ++ margin depth ++ "]"
  | .obj members =>
    "\x7b\n" ++ indentedMembers (depth + 1) members ++ "\n" ++ margin depth ++ "\x7d"
  | v => render v

def indentedItems (depth : Nat) : List Json → String
  | [] => ""
  | [v] => margin depth ++ renderIndented depth v
  | v :: rest => margin depth ++ renderIndented depth v ++ ",\n" ++ indentedItems depth rest

def indentedMembers (depth : Nat) : List (String × Json) → String
  | [] => ""
  | [(k, v)] => margin depth ++ renderText k ++ ": " ++ renderIndented depth v
  | (k, v) :: rest =>
    margin depth ++ renderText k ++ ": " ++ renderIndented depth v ++ ",\n" ++
      indentedMembers depth rest

def margin (depth : Nat) : String := String.ofList (List.replicate (2 * depth) ' ')

end

inductive Fault where
  | ended
  | unexpected (c : Char) (place : String)
  | badEscape (bytes : List UInt8)
  | tooDeep
  | misfit (kind target type : String)
  deriving DecidableEq, Repr

namespace Fault

def quotedChar (c : Char) : String :=
  if c = '\'' then "'\\''"
  else if c = '"' then "'\"'"
  else "'" ++ String.ofList (Text.escape c) ++ "'"

/-- An escape as it is shown: between backquotes, unless something in it would not show there. -/
def shownEscape (bytes : List UInt8) : String :=
  match Utf8.decode? bytes with
  | some s =>
    if s.any fun c => c.toNat = 0x60 || c = '\ufffd' || Unicode.isSpace c || !Text.isPrintable c then
      quotedBytes bytes
    else "\x60" ++ String.ofList s ++ "\x60"
  | none => quotedBytes bytes

def message : Fault → String
  | ended => "unexpected end of JSON input"
  | badEscape bytes => s!"invalid escape sequence {shownEscape bytes} in string"
  | unexpected c place => s!"invalid character {quotedChar c} {place}"
  | tooDeep => "exceeded max depth"
  | misfit kind target type => s!"json: cannot unmarshal {kind} into Go {target}of type {type}"

end Fault

def isGap (c : Char) : Bool := c = ' ' || c = '\t' || c = '\r' || c = '\n'

def readWord (whole : String) : List Char → List Char → Except Fault (List Char)
  | [], s => .ok s
  | _ :: _, [] => .error .ended
  | w :: ws, c :: s =>
    if w = c then readWord whole ws s
    else .error (.unexpected c s!"in literal {whole} (expecting {Fault.quotedChar w})")

def hexDigit? (c : Char) : Option Nat :=
  if Text.isDigit c then some (c.toNat - 0x30)
  else if 'a' ≤ c && c ≤ 'f' then some (c.toNat - 0x61 + 10)
  else if 'A' ≤ c && c ≤ 'F' then some (c.toNat - 0x41 + 10)
  else none

def readUnit (s : List Char) : Except Fault (Nat × List Char) :=
  let digits := (s.take 4).filterMap hexDigit?
  if digits.length = 4 then .ok (digits.foldl (fun n d => 16 * n + d) 0, s.drop 4)
  else
    let bytes := (Utf8.encode ('\\' :: 'u' :: s.take 4)).take 6
    if bytes.length < 6 && digits.length = s.length then .error .ended else .error (.badEscape bytes)

def joinUnits : List Nat → List Char
  | [] => []
  | [n] => [if 0xd800 ≤ n && n < 0xe000 then '\ufffd' else Char.ofNat n]
  | n :: m :: rest =>
    if 0xd800 ≤ n && n < 0xdc00 && 0xdc00 ≤ m && m < 0xe000 then
      Char.ofNat (0x10000 + (n - 0xd800) * 0x400 + (m - 0xdc00)) :: joinUnits rest
    else (if 0xd800 ≤ n && n < 0xe000 then '\ufffd' else Char.ofNat n) :: joinUnits (m :: rest)

/-- Reads the rest of a text after its opening quote. `units` holds escaped code units that may
still join, latest first. -/
def readText (fuel : Nat) (units : List Nat) (acc : List Char) (s : List Char) :
    Except Fault (List Char × List Char) :=
  match fuel with
  | 0 => .error .ended
  | fuel + 1 =>
    let acc' := (joinUnits units.reverse).reverse ++ acc
    match s with
    | [] => .error .ended
    | '"' :: rest => .ok (acc'.reverse, rest)
    | '\\' :: c :: rest =>
      if c = 'u' then
        match readUnit rest with
        | .ok (n, rest) => readText fuel (n :: units) acc rest
        | .error e => .error e
      else if c = '"' || c = '\\' || c = '/' then readText fuel [] (c :: acc') rest
      else if c = 'b' then readText fuel [] ('\x08' :: acc') rest
      else if c = 'f' then readText fuel [] ('\x0c' :: acc') rest
      else if c = 'n' then readText fuel [] ('\n' :: acc') rest
      else if c = 'r' then readText fuel [] ('\r' :: acc') rest
      else if c = 't' then readText fuel [] ('\t' :: acc') rest
      else .error (.badEscape ((Utf8.encode ['\\', c]).take 2))
    | ['\\'] => .error .ended
    | c :: rest =>
      if c.toNat < 0x20 then .error (.unexpected c "in string")
      else readText fuel [] (c :: acc') rest

def readDigits (s : List Char) : Except Fault (List Char × List Char) :=
  match s with
  | [] => .error .ended
  | c :: _ =>
    if Text.isDigit c then .ok (s.takeWhile Text.isDigit, s.dropWhile Text.isDigit)
    else .error (.unexpected c "in numeric literal")

/-- Reads a number: a sign, digits without leading zeros, a fraction, an exponent. -/
def readNumber (s : List Char) : Except Fault (List Char × List Char) := do
  let (sign, s) := match s with
    | '-' :: s => (['-'], s)
    | s => ([], s)
  let (whole, s) ← match s with
    | '0' :: s => pure (['0'], s)
    | s => readDigits s
  let (fraction, s) ← match s with
    | '.' :: s => do
      let (ds, s) ← readDigits s
      pure ('.' :: ds, s)
    | s => pure ([], s)
  let (exponent, s) ← match s with
    | e :: s =>
      if e = 'e' || e = 'E' then do
        let (mark, s) := match s with
          | '+' :: s => (['+'], s)
          | '-' :: s => (['-'], s)
          | s => ([], s)
        let (ds, s) ← readDigits s
        pure (e :: mark ++ ds, s)
      else pure ([], e :: s)
    | [] => pure ([], [])
  return (sign ++ whole ++ fraction ++ exponent, s)

def maxDepth : Nat := 10000

mutual

/-- Reads a value that stands inside `depth` others and returns what follows it. -/
def readValue (fuel depth : Nat) (s : List Char) : Except Fault (Json × List Char) :=
  match fuel with
  | 0 => .error .tooDeep
  | fuel + 1 =>
    match s.dropWhile isGap with
    | [] => .error .ended
    | 'n' :: s => (readWord "null" ['u', 'l', 'l'] s).map fun s => (.null, s)
    | 't' :: s => (readWord "true" ['r', 'u', 'e'] s).map fun s => (.bool true, s)
    | 'f' :: s => (readWord "false" ['a', 'l', 's', 'e'] s).map fun s => (.bool false, s)
    | '"' :: s =>
      (readText (s.length + 1) [] [] s).map fun (t, s) => (.str (String.ofList t), s)
    | '[' :: s =>
      if depth ≥ maxDepth then .error .tooDeep
      else
        match s.dropWhile isGap with
        | ']' :: s => .ok (.arr [], s)
        | _ => readItems fuel (depth + 1) s []
    | '\x7b' :: s =>
      if depth ≥ maxDepth then .error .tooDeep
      else
        match s.dropWhile isGap with
        | '\x7d' :: s => .ok (.obj [], s)
        | _ => readMembers fuel (depth + 1) s []
    | c :: s =>
      if c = '-' || Text.isDigit c then
        (readNumber (c :: s)).map fun (t, s) => (.num (String.ofList t), s)
      else .error (.unexpected c "looking for beginning of value")

def readItems (fuel depth : Nat) (s : List Char) (acc : List Json) : Except Fault (Json × List Char) :=
  match fuel with
  | 0 => .error .tooDeep
  | fuel + 1 =>
    match readValue fuel depth s with
    | .error e => .error e
    | .ok (v, s) =>
      match s.dropWhile isGap with
      | [] => .error .ended
      | ',' :: s => readItems fuel depth s (v :: acc)
      | ']' :: s => .ok (.arr (v :: acc).reverse, s)
      | c :: _ => .error (.unexpected c "after array element")

def readMembers (fuel depth : Nat) (s : List Char) (acc : List (String × Json)) :
    Except Fault (Json × List Char) :=
  match fuel with
  | 0 => .error .tooDeep
  | fuel + 1 =>
    match s.dropWhile isGap with
    | [] => .error .ended
    | '"' :: s =>
      match readText (s.length + 1) [] [] s with
      | .error e => .error e
      | .ok (k, s) =>
        match s.dropWhile isGap with
        | [] => .error .ended
        | ':' :: s =>
          match readValue fuel depth s with
          | .error e => .error e
          | .ok (v, s) =>
            match s.dropWhile isGap with
            | [] => .error .ended
            | ',' :: s => readMembers fuel depth s ((String.ofList k, v) :: acc)
            | '\x7d' :: s => .ok (.obj ((String.ofList k, v) :: acc).reverse, s)
            | c :: _ => .error (.unexpected c "after object key:value pair")
        | c :: _ => .error (.unexpected c "after object key")
    | c :: _ => .error (.unexpected c "looking for beginning of object key string")

end

def parse (s : String) : Except Fault Json := do
  let cs := s.toList
  let (v, rest) ← readValue (2 * cs.length + 2) 0 cs
  match rest.dropWhile isGap with
  | [] => return v
  | c :: _ => throw (.unexpected c "after top-level value")

end Json

end Taproom
