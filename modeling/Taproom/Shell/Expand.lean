import Taproom.Shell.Session
import Taproom.Text.Glob

/-!
How words get their text when a script runs: values are put in, unquoted ones are split into
fields, and unquoted patterns become the paths that they hold for.
-/

namespace Taproom.Shell

inductive Halt where
  | exited (status : Nat)
  | killed
  | left (again : Bool)
  deriving DecidableEq

abbrev Exec := ExceptT Halt (StateM Session)

/-- Characters, each with a mark that says whether it was quoted. -/
abbrev Marked := List (Char × Bool)

/-- Fields that are made one after the other; the open one is written backwards. -/
structure Fields where
  closed : List Marked := []
  current : Option Marked := none

namespace Fields

def close (f : Fields) : Fields :=
  match f.current with
  | some m => { closed := m.reverse :: f.closed }
  | none => f

def addText (f : Fields) (s : String) (quoted : Bool) : Fields :=
  { f with current := some ((s.toList.map fun c => (c, quoted)).reverse ++ f.current.getD []) }

def addSplit (f : Fields) (s : String) : Fields :=
  s.toList.foldl (fun f c =>
    if Text.isBlank c then f.close
    else { f with current := some ((c, false) :: f.current.getD []) }) f

def toList (f : Fields) : List Marked := f.close.closed.reverse

end Fields

def textOf (m : Marked) : String := String.ofList (m.map (·.1))

def ownNumber : String := "4242"

def valueOf? (s : Session) (name : String) : Option String :=
  match name with
  | "$" => some ownNumber
  | "?" => some (toString s.status)
  | "#" => some (toString s.args.length)
  | "@" | "*" => some (" ".intercalate s.args)
  | "!" | "-" => some ""
  | name =>
    match name.toList with
    | [c] => if Text.isDigit c && c ≠ '0' then s.args[c.toNat - 49]? else s.vars.get? name
    | _ => s.vars.get? name

def patternOf (m : Marked) : Option (List (List Glob.Piece)) :=
  Glob.parse? (m.flatMap fun (c, quoted) =>
    if quoted || c = '\x7b' || c = '\x7d' || c = '\\' then ['\\', c] else [c])

def cutPattern (form : String) (pattern value : List Char) : List Char :=
  match Glob.parse? pattern with
  | none => value
  | some alternatives =>
    let holds (s : List Char) := Glob.holds alternatives (String.ofList s)
    let lengths := List.range (value.length + 1)
    let lengths := if form.length = 2 then lengths.reverse else lengths
    if form.startsWith "#" then
      match lengths.find? fun n => holds (value.take n) with
      | some n => value.drop n
      | none => value
    else
      match lengths.find? fun n => holds (value.drop (value.length - n)) with
      | some n => value.take (value.length - n)
      | none => value

def readSum (s : Session) (text : List Char) : Int :=
  ((Text.splitAt '+' (text.filter fun c => !Text.isBlank c)).map fun t =>
    match (Text.splitAt '-' t).map product with
    | [] => 0
    | a :: rest => rest.foldl (· - ·) a).foldl (· + ·) 0
where
  product (t : List Char) : Int := ((Text.splitAt '*' t).map atom).foldl (· * ·) 1
  atom (t : List Char) : Int :=
    let t := if t.head? = some '$' then t.tail else t
    (Text.readInt? t).getD (((valueOf? s (String.ofList t)).bind fun v => Text.readInt? v.toList).getD 0)

/-- The value that a variable part stands for. `inner` expands the text behind a form. -/
def valuePart (inner : String → Exec String) (name form other : String) : Exec String := do
  let value := valueOf? (← get) name
  let text := value.getD ""
  match form with
  | "" => return text
  | "length" => return toString text.length
  | ":-" => if text = "" then inner other else return text
  | "-" => if value.isNone then inner other else return text
  | ":=" | "=" =>
    if text ≠ "" || (form = "=" && value.isSome) then return text
    let new ← inner other
    modify fun s => { s with vars := s.vars.insert name new }
    return new
  | ":+" => if text = "" then return "" else inner other
  | "+" => if value.isNone then return "" else inner other
  | ":?" | "?" =>
    if text ≠ "" || (form = "?" && value.isSome) then return text
    let told ← inner other
    let reason := if told = "" then "parameter not set or null" else told
    Session.complain s!"sh: 1: {name}: {reason}"
    throw (.exited 2)
  | form => return String.ofList (cutPattern form (← inner other).toList text.toList)

def expandParts (capture : String → Exec String) (w : Word) (f : Fields) : Exec Fields :=
  w.foldlM (fun f p => do
    match p with
    | .text s quoted => return f.addText s quoted
    | .value "@" "" _ true =>
      match (← get).args with
      | [] => return f
      | a :: rest => return rest.foldl (fun f a => f.close.addText a true) (f.addText a true)
    | .value name form other quoted =>
      let inner (t : String) : Exec String :=
        if t = "" then return "" else capture ("printf %s \"" ++ t ++ "\"")
      let v ← valuePart inner name form other
      return if quoted then f.addText v true else f.addSplit v
    | .output script quoted =>
      let v ← capture script
      return if quoted then f.addText v true else f.addSplit v
    | .number sum quoted => return f.addText (toString (readSum (← get) sum.toList)) quoted) f

def isPattern (m : Marked) : Bool :=
  m.any fun (c, quoted) => !quoted && (c = '*' || c = '?' || c = '[')

def pathParts : Marked → List Marked
  | [] => [[]]
  | (c, q) :: rest =>
    match pathParts rest with
    | [] => [[(c, q)]]
    | part :: parts => if c = '/' then [] :: part :: parts else ((c, q) :: part) :: parts

def namesIn (d : Disk) (p : String) : List String :=
  match d.find true (if p = "" then "." else p) with
  | .ok (place, .dir _) => sortNames ((d.children place).map (·.1))
  | _ => []

def pathsFor (d : Disk) (base : String) : List Marked → List String
  | [] => [base]
  | part :: rest =>
    let names :=
      if isPattern part then
        match patternOf part with
        | some alternatives =>
          (namesIn d base).filter fun n =>
            Glob.holds alternatives n && (!startsWith n "." || part.head?.any (·.1 = '.'))
        | none => [textOf part]
      else [textOf part]
    names.flatMap fun n => pathsFor d (if rest.isEmpty then base ++ n else base ++ n ++ "/") rest

def expandField (d : Disk) (m : Marked) : List String :=
  if isPattern m then
    match (pathsFor d "" (pathParts m)).filter fun p => (d.find false p).isOk with
    | [] => [textOf m]
    | l => l
  else [textOf m]

def expandWords (capture : String → Exec String) (ws : List Word) : Exec (List String) := do
  let f ← ws.foldlM (fun (f : Fields) w => return (← expandParts capture w f).close) {}
  let d := (← get).disk
  return f.toList.flatMap (expandField d)

def expandText (capture : String → Exec String) (w : Word) : Exec String := do
  let whole := w.map fun
    | .text s _ => Part.text s true
    | .value "@" form other _ => .value "*" form other true
    | .value name form other _ => .value name form other true
    | .output script _ => .output script true
    | .number sum _ => .number sum true
  let f ← expandParts capture whole {}
  return " ".intercalate (f.toList.map textOf)

end Taproom.Shell
