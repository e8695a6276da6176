import Taproom.Calendar.Layout
import Taproom.Plist
import Taproom.Text.Base64
import Taproom.Text.Real

/-!
Property lists written as XML.
-/

namespace Taproom.Plist.Markup

inductive Trouble where
  /-- It is no XML, or not of this sort, so that it may be written in another form. -/
  | foreign
  | problem (text : String)

/-- Reading goes over tokens, which `fault` ends. -/
structure Source where
  fault : Xml.Fault

abbrev Result := Except Trouble (Plist × List Xml.Token)

def Source.ended (s : Source) {α : Type} : Except Trouble α := .error (.problem s.fault.message)

def textOf? (depth : Nat) (acc : List Char) :
    List Xml.Token → Option (List Char × List Xml.Token)
  | [] => none
  | .text s :: rest => textOf? depth (if depth = 0 then s.reverse ++ acc else acc) rest
  | .opening _ :: rest => textOf? (depth + 1) acc rest
  | .closing _ :: rest =>
    match depth with
    | 0 => some (acc.reverse, rest)
    | depth + 1 => textOf? depth acc rest

def numberProblem (reader : String) (s : String) : Text.NumberFault → String
  | .malformed => s!"strconv.{reader}: parsing {quoted s}: invalid syntax"
  | .outOfRange => s!"strconv.{reader}: parsing {quoted s}: value out of range"

def hexDigit? (c : Char) : Option Nat := Xml.Read.hexDigit? c

def digits? (base : Nat) (s : List Char) : Option Nat :=
  if s.isEmpty then none
  else s.foldlM (fun n c => ((hexDigit? c).filter (· < base)).map (base * n + ·)) 0

/-- A whole number in base ten or, behind `0x`, sixteen. Negative ones fit a word with a sign, others
a word without. -/
def readInteger (s : List Char) : Except String Int :=
  let based (s : List Char) : List Char × Nat :=
    match s with
    | '0' :: x :: rest => if x = 'x' || x = 'X' then (rest, 16) else (s, 10)
    | s => (s, 10)
  match s with
  | [] => .error "invalid empty <integer/>"
  | '-' :: s =>
    let (digits, base) := based s
    let shown := String.ofList ('-' :: digits)
    match digits? base digits with
    | none => .error (numberProblem "ParseInt" shown .malformed)
    | some n =>
      if n ≤ Nat.pow 2 63 then .ok (-n) else .error (numberProblem "ParseInt" shown .outOfRange)
  | s =>
    let (digits, base) := based s
    let shown := String.ofList digits
    match digits? base digits with
    | none => .error (numberProblem "ParseUint" shown .malformed)
    | some n =>
      if n < Nat.pow 2 64 then .ok n else .error (numberProblem "ParseUint" shown .outOfRange)

def readLeaf (name : String) (s : List Char) : Option (Except String Plist) :=
  match name with
  | "string" => some (.ok (.text (String.ofList s)))
  | "integer" => some ((readInteger s).map .integer)
  | "real" =>
    some (match Real.check s with
      | .ok () => .ok .real
      | .error f => .error (numberProblem "ParseFloat" (String.ofList s) f))
  | "date" =>
    let time := String.ofList s
    some (match Calendar.Layout.internet.read time with
      | .ok _ => .ok .date
      | .error m => .error (m.message time))
  | "data" =>
    some (match Base64.decodeBytes (Utf8.encode (s.filter fun c => !Xml.Read.isSpace c)) with
      | .ok _ => .ok .data
      | .error place => .error s!"illegal base64 data at input byte {place}")
  | _ => none

mutual

def readElement (src : Source) (fuel : Nat) (first : Bool) (name : String)
    (ts : List Xml.Token) : Result :=
  match fuel with
  | 0 => src.ended
  | fuel + 1 =>
    match name with
    | "plist" => readOuter src fuel ts
    | "dict" => readDict src fuel none [] ts
    | "array" => readArray src fuel [] ts
    | "true" | "false" => .ok (.boolean (name = "true"), ((textOf? 0 [] ts).map (·.2)).getD [])
    | name =>
      if (readLeaf name []).isNone then
        .error (if first then .foreign else .problem s!"encountered unknown element {name}")
      else
        match textOf? 0 [] ts with
        | none => src.ended
        | some (s, rest) =>
          match readLeaf name s with
          | some (.ok v) => .ok (v, rest)
          | some (.error problem) => .error (.problem problem)
          | none => src.ended

def readOuter (src : Source) (fuel : Nat) (ts : List Xml.Token) : Result :=
  match fuel with
  | 0 => src.ended
  | fuel + 1 =>
    match ts with
    | [] => src.ended
    | .opening name :: rest => readElement src fuel false (String.ofList name) rest
    | .closing _ :: rest => .ok (.nothing, rest)
    | .text _ :: rest => readOuter src fuel rest

def readDict (src : Source) (fuel : Nat) (key : Option String) (acc : List (String × Plist))
    (ts : List Xml.Token) : Result :=
  match fuel with
  | 0 => src.ended
  | fuel + 1 =>
    match ts with
    | [] => src.ended
    | .opening ['k', 'e', 'y'] :: rest =>
      match textOf? 0 [] rest with
      | none => src.ended
      | some (s, rest) => readDict src fuel (some (String.ofList s)) acc rest
    | .opening name :: rest =>
      match key with
      | none => .error (.problem "missing key in dictionary")
      | some key => do
        let (v, rest) ← readElement src fuel false (String.ofList name) rest
        readDict src fuel none ((key, v) :: acc) rest
    | .closing _ :: rest =>
      match key with
      | none => .ok (ofMembers false acc.reverse, rest)
      | some _ => .error (.problem "missing value in dictionary")
    | .text _ :: rest => readDict src fuel key acc rest

def readArray (src : Source) (fuel : Nat) (acc : List Plist) (ts : List Xml.Token) : Result :=
  match fuel with
  | 0 => src.ended
  | fuel + 1 =>
    match ts with
    | [] => src.ended
    | .opening name :: rest => do
      let (v, rest) ← readElement src fuel false (String.ofList name) rest
      readArray src fuel (v :: acc) rest
    | .closing _ :: rest => .ok (.array acc.reverse, rest)
    | .text _ :: rest => readArray src fuel acc rest

end

def fromFirstTag : List Xml.Token → List Xml.Token
  | .opening name :: rest => .opening name :: rest
  | _ :: rest => fromFirstTag rest
  | [] => []

def read (s : List Char) : Except Trouble Plist :=
  let (ts, fault) := Xml.scan s
  match fromFirstTag ts with
  | .opening name :: rest =>
    (readElement ⟨fault⟩ (2 * rest.length + 2) true (String.ofList name) rest).map (·.1)
  | _ => .error .foreign

end Taproom.Plist.Markup
