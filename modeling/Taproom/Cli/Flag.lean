import Taproom.Dict
import Taproom.Fault
import Taproom.Text.Quoted

/-!
Flags on a command line. They may stand before, between and after the arguments; two dashes end
them.
-/

namespace Taproom.Cli

/-- A flag takes a text, or is a switch that is on when it is given. -/
structure Flag where
  name : String
  short : Option Char := none
  isSwitch : Bool := false
  default : String := ""
  usage : String
  deriving DecidableEq, Repr

structure Line where
  values : Dict String String := {}
  given : List String := []
  args : List String := []

namespace Line

def text (l : Line) (name : String) : String := l.values.getD name ""

def isOn (l : Line) (name : String) : Bool := l.text name = "true"

end Line

namespace Flag

def truth? (s : String) : Option Bool :=
  if ["1", "t", "T", "TRUE", "true", "True"].contains s then some true
  else if ["0", "f", "F", "FALSE", "false", "False"].contains s then some false
  else none

def title (f : Flag) : String :=
  match f.short with
  | some c => s!"-{c}, --{f.name}"
  | none => s!"--{f.name}"

def set (f : Flag) (value : String) (l : Line) : Except Fault Line :=
  let put (v : String) : Line :=
    { l with values := l.values.insert f.name v, given := l.given ++ [f.name] }
  if !f.isSwitch then .ok (put value)
  else
    match truth? value with
    | some b => .ok (put (toString b))
    | none =>
      let v := quoted value
      .error (.told
        s!"invalid argument {v} for {quoted f.title} flag: strconv.ParseBool: parsing {v}: invalid syntax")

/-- Reads a flag that is written out. `next` is the word after it; whether it was taken as the
value is told. -/
def readLong (flags : List Flag) (word : String) (next : Option String) (l : Line) :
    Except Fault (Line × Bool) :=
  let written := word.toList.drop 2
  let name := String.ofList (written.takeWhile (· ≠ '='))
  let value := written.dropWhile (· ≠ '=')
  if name = "" || written.head? = some '-' then .error (.told s!"bad flag syntax: {word}")
  else
    match flags.find? (·.name = name) with
    | none => .error (.told s!"unknown flag: --{name}")
    | some f =>
      match value, next with
      | _ :: value, _ => (f.set (.ofList value) l).map (·, false)
      | [], next =>
        if f.isSwitch then (f.set "true" l).map (·, false)
        else
          match next with
          | some value => (f.set value l).map (·, true)
          | none => .error (.told s!"flag needs an argument: {word}")

/-- The first byte of a letter between single quotes, as a character of its own. -/
def letterQuoted (c : Char) : String :=
  let b := Char.ofNat ((Utf8.encode [c]).headD 0).toNat
  let shown := if b = '\'' then ['\\', '\''] else if b = '"' then ['"'] else Text.escape b
  String.ofList ('\'' :: shown ++ ['\''])

def readShort (flags : List Flag) (next : Option String) : List Char → Line →
    Except Fault (Line × Bool)
  | [], l => .ok (l, false)
  | c :: rest, l =>
    let group := String.ofList (c :: rest)
    match flags.find? (·.short = some c) with
    | none => .error (.told s!"unknown shorthand flag: {letterQuoted c} in -{group}")
    | some f =>
      match rest with
      | '=' :: v :: value => (f.set (.ofList (v :: value)) l).map (·, false)
      | _ =>
        if f.isSwitch then do
          readShort flags next rest (← f.set "true" l)
        else if !rest.isEmpty then (f.set (.ofList rest) l).map (·, false)
        else
          match next with
          | some value => (f.set value l).map (·, true)
          | none => .error (.told s!"flag needs an argument: {letterQuoted c} in -{group}")

/-- Whether a word is an argument. A single dash is one. -/
def isArgument (word : String) : Bool := !startsWith word "-" || word = "-"

def readWords (flags : List Flag) : List String → Line → Except Fault Line
  | [], l => .ok l
  | word :: rest, l =>
    if isArgument word then readWords flags rest { l with args := l.args ++ [word] }
    else if word = "--" then .ok { l with args := l.args ++ rest }
    else
      let taken := if startsWith word "--" then readLong flags word rest.head? l
        else if startsWith word "-test." then .ok (l, false)
        else readShort flags rest.head? (word.toList.drop 1) l
      match taken, rest with
      | .error f, _ => .error f
      | .ok (l, true), _ :: rest => readWords flags rest l
      | .ok (l, _), rest => readWords flags rest l

/-- Reads a command line on which flags that are not given have their defaults. -/
def read (flags : List Flag) (words : List String) : Except Fault Line :=
  readWords flags words { values := .ofList (flags.map fun f => (f.name, f.default)) }

end Flag

end Taproom.Cli
