import Taproom.Calendar.Layout
import Taproom.Plist.Markup

/-!
Property lists written as plain text: dictionaries in braces, lists in parentheses, data in angle
brackets, and texts with or without quotes.
-/

namespace Taproom.Plist.Plain

/-- A place in a text: its line, and the bytes of that line before it. `extended` tells whether
values have been met that the old form of the language does not know. There are fewer than `bound`
characters. -/
structure Place where
  rest : List Char
  bound : Nat
  line : Nat := 0
  column : Nat := 0
  extended : Bool := false

abbrev Read (α : Type) := StateT Place (Except String) α

def fail {α : Type} (problem : String) : Read α := do
  let p ← get
  throw s!"{problem} at line {p.line} character {p.column}"

def Place.after (p : Place) (s : List Char) : Place :=
  s.foldl (fun p c =>
    { p with
      rest := p.rest.drop 1
      line := if c = '\n' then p.line + 1 else p.line
      column := if c = '\n' then 0 else p.column + c.utf8Size }) p

def advance (s : List Char) : Read Unit := modify (·.after s)

def next? : Read (Option Char) := do
  match (← get).rest with
  | [] => return none
  | c :: _ => advance [c]; return some c

def peek? : Read (Option Char) := return (← get).rest.head?

def takeWhile (p : Char → Bool) : Read (List Char) := do
  let s := (← get).rest.takeWhile p
  advance s
  return s

def isSpace (c : Char) : Bool := (8 ≤ c.toNat && c.toNat ≤ 13) || c = ' '

def needsQuotes (c : Char) : Bool :=
  c.toNat < 0x20 || (0x7f ≤ c.toNat && c.toNat < 0x100) ||
    [' ', '"', '\'', '(', ')', ',', ';', '<', '=', '>', '[', '\\', ']', '`', '\x7b', '\x7d'].contains c

def skipGap (fuel : Nat) : Read Unit :=
  match fuel with
  | 0 => return
  | fuel + 1 => do
    let _ ← takeWhile isSpace
    match (← get).rest with
    | '/' :: '/' :: _ =>
      let _ ← takeWhile fun c => c ≠ '\n' && c ≠ '\r'
      skipGap fuel
    | '/' :: '*' :: rest =>
      -- The end of a comment may share its star with the beginning.
      match Text.cut? ['*', '/'] ('*' :: rest) with
      | some (before, _) =>
        advance (['/'] ++ before ++ ['*', '/'])
        skipGap fuel
      | none => fail "unexpected eof in block comment"
    | _ => return

def gap : Read Unit := do skipGap (← get).bound

def digits (base count : Nat) : Read Nat := do
  let s := ((← get).rest.take count).takeWhile fun c => (Markup.hexDigit? c).any (· < base)
  advance s
  return s.foldl (fun n c => base * n + (Markup.hexDigit? c).getD 0) 0

/-- The characters that a backslash, which is gone, introduces. One that means nothing is dropped. -/
def escape : Read (List Char) := do
  let code (base count : Nat) : Read (List Char) :=
    return [Xml.Read.charOf (← digits base count)]
  let simple (c : Char) : Read (List Char) := do
    let _ ← next?
    return [c]
  match ← peek? with
  | some 'a' => simple '\x07'
  | some 'b' => simple '\x08'
  | some 'v' => simple '\x0b'
  | some 'f' => simple '\x0c'
  | some 't' => simple '\t'
  | some 'r' => simple '\r'
  | some 'n' => simple '\n'
  | some '\\' => simple '\\'
  | some '"' => simple '"'
  | some 'x' =>
    let _ ← next?
    code 16 2
  | some 'u' | some 'U' =>
    let _ ← next?
    code 16 4
  | some c => if '0' ≤ c && c ≤ '7' then code 8 3 else return []
  | none => return []

def quotedLoop (fuel : Nat) (acc : List Char) : Read (List Char) :=
  match fuel with
  | 0 => return acc.reverse
  | fuel + 1 => do
    let s ← takeWhile fun c => c ≠ '"' && c ≠ '\\'
    let acc := s.reverse ++ acc
    match ← next? with
    | none => fail "unexpected eof in quoted string"
    | some '"' => return acc.reverse
    | some _ => quotedLoop fuel ((← escape).reverse ++ acc)

def quotedText : Read String := do
  return String.ofList (← quotedLoop (← get).bound [])

def bareText : Read String := do
  let s ← takeWhile (!needsQuotes ·)
  if s.isEmpty then
    fail "invalid unquoted string (found an unquoted character that should be quoted?)"
  return String.ofList s

def hexData (fuel : Nat) (count : Nat) : Read Plist :=
  match fuel with
  | 0 => return .data
  | fuel + 1 => do
    match ← next? with
    | none => fail "unexpected eof in data"
    | some '>' =>
      if count % 2 = 1 then fail "uneven number of hex digits in data"
      return .data
    | some c =>
      if [' ', '\t', '\n', '\r', '\u2028', '\u2029'].contains c then hexData fuel count
      else if (Markup.hexDigit? c).isSome then hexData fuel (count + 1)
      else fail ("unexpected hex digit `" ++ String.singleton c ++ "'")

def dateLayout : Calendar.Layout :=
  [.year, .text "-", .month true, .text "-", .day true, .text " ", .hour, .text ":", .minute true,
   .text ":", .second true, .text " ", .zone false false]

def extendedValue : Read Plist := do
  let kind ← match ← next? with
    | none | some '>' => fail "invalid GNUStep extended value"
    | some c => pure c
  if !(['I', 'R', 'B', 'D'].contains kind) then
    fail ("unknown GNUStep extended value type `" ++ String.singleton kind ++ "'")
  if (← peek?) = some '"' then advance ['"']
  let written ← takeWhile (· ≠ '>')
  if (← peek?).isNone then fail "unterminated GNUStep extended value"
  if written.isEmpty then fail "empty GNUStep extended value"
  advance ['>']
  let v := if written.getLast? = some '"' then written.dropLast else written
  let shown := String.ofList v
  if kind = 'I' then
    let reader := if v.head? = some '-' then "ParseInt" else "ParseUint"
    let (size, limit) := match v with
      | '-' :: rest => (Markup.digits? 10 rest, Nat.pow 2 63)
      | v => (Markup.digits? 10 v, Nat.pow 2 64 - 1)
    match size with
    | none => throw (Markup.numberProblem reader shown .malformed)
    | some n =>
      if n > limit then throw (Markup.numberProblem reader shown .outOfRange)
      return .integer (if v.head? = some '-' then -n else n)
  else if kind = 'R' then
    match Real.check v with
    | .ok () => return .real
    | .error f => throw (Markup.numberProblem "ParseFloat" shown f)
  else if kind = 'B' then return .boolean (v.head? = some 'Y')
  else
    match dateLayout.read shown with
    | .ok _ => return .date
    | .error m => fail (m.message shown)

def base64Data : Read Plist := do
  let written ← takeWhile (· ≠ ']')
  if (← next?) ≠ some ']' then fail "invalid GNUStep base64 data (expected ']')"
  if (← next?) ≠ some '>' then fail "invalid GNUStep base64 data (expected '>')"
  let known := written.filter fun c => c = '=' || (Base64.digit? c).isSome
  match Base64.decodeBytes (Utf8.encode known) with
  | .ok _ => return .data
  | .error place => fail s!"invalid GNUStep base64 data: illegal base64 data at input byte {place}"

mutual

/-- Reads a value. Where there is none, it is an empty dictionary. -/
def value (fuel : Nat) : Read Plist :=
  match fuel with
  | 0 => return .dict []
  | fuel + 1 => do
    gap
    match ← peek? with
    | none => return .dict []
    | some '<' =>
      advance ['<']
      match ← peek? with
      | some '*' =>
        advance ['*']
        modify fun p => { p with extended := true }
        extendedValue
      | some '[' =>
        advance ['[']
        modify fun p => { p with extended := true }
        base64Data
      | _ => hexData (← get).bound 0
    | some '"' =>
      advance ['"']
      return .text (← quotedText)
    | some '\x7b' =>
      advance ['\x7b']
      members fuel false []
    | some '(' =>
      advance ['(']
      items fuel []
    | some _ => return .text (← bareText)

def members (fuel : Nat) (ongoing : Bool) (acc : List (String × Plist)) : Read Plist :=
  match fuel with
  | 0 => return .dict acc.reverse
  | fuel + 1 => do
    gap
    let finish : Read Plist := do return ofMembers (!(← get).extended) acc.reverse
    let rest (key : String) : Read Plist := do
      gap
      match ← next? with
      | some ';' => members fuel ongoing ((key, .text key) :: acc)
      | some '=' =>
        let v ← value fuel
        gap
        if (← next?) ≠ some ';' then fail "missing ; in dictionary"
        members fuel ongoing ((key, v) :: acc)
      | _ => fail "missing = in dictionary"
    match ← peek? with
    | none => if ongoing then finish else fail "unexpected eof in dictionary"
    | some '\x7d' =>
      advance ['\x7d']
      finish
    | some '"' =>
      advance ['"']
      rest (← quotedText)
    | some _ => rest (← bareText)

def items (fuel : Nat) (acc : List Plist) : Read Plist :=
  match fuel with
  | 0 => return .array acc.reverse
  | fuel + 1 => do
    gap
    match ← peek? with
    | none => fail "unexpected eof in array"
    | some ')' =>
      advance [')']
      return .array acc.reverse
    | some ',' =>
      advance [',']
      items fuel acc
    | some _ =>
      match ← value fuel with
      | .text "" => items fuel acc
      | v => items fuel (v :: acc)

end

/-- Reads a text. A text that starts with a plain word and goes on is the inside of a dictionary. -/
def document (s : List Char) : Read Plist := do
  let fuel := 2 * s.length + 4
  let v ← value fuel
  gap
  if (← peek?).isNone then return v
  match v with
  | .text _ =>
    set { rest := s, bound := s.length + 1, extended := (← get).extended : Place }
    members fuel true []
  | _ => fail "garbage after end of document"

def read (s : List Char) : Except String Plist := ((document s).run { rest := s, bound := s.length + 1 }).map (·.1)

end Taproom.Plist.Plain
