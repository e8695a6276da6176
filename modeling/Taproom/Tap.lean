import Taproom.Disk.Action
import Taproom.Disk.Search
import Taproom.Formula.Check
import Taproom.Formula.Reader

/-!
Taps: directory trees of formulae with a table of aliases.
-/

namespace Taproom

/-- Reads a formula from a file. One that does not name itself takes the name of its file. -/
def Formula.load (d : Disk) (path : String) : Except Fault Formula := do
  let bytes ← during s!"couldn't read formula {path}" (d.read path)
  during s!"couldn't parse formula {path}" do
    match String.fromUTF8? bytes with
    | none => throw (.yaml (.unreadable "invalid leading UTF-8 octet"))
    | some text =>
      let f ← (Formula.parse text).mapError .yaml
      return if f.name = "" then { f with name := Path.stem path } else f

structure Tap where
  path : String
  deriving DecidableEq, Repr, Inhabited

namespace Tap

def formulaDir : String := "Formula"

def suffix : String := ".yml"

def paths (t : Tap) (d : Disk) : List String :=
  (({ disk := d, root := t.path : Disk.Search }).paths (formulaDir ++ "/**/*" ++ suffix)).getD []

def names (t : Tap) (d : Disk) : Dict String String :=
  .ofList ((t.paths d).map fun p => (Path.stem p, p))

/-- Where a formula is looked for first: in the main directory and in that of its first letter. -/
def usualPaths (name : String) : List String :=
  let flat := Path.join [formulaDir, name ++ suffix]
  match name.toList with
  | c :: _ =>
    if c.toNat < 0x80 then [flat, Path.join [formulaDir, String.singleton c, name ++ suffix]]
    else [flat]
  | [] => [flat]

def search (t : Tap) (d : Disk) (name : String) : Except Fault (List String) :=
  match ({ disk := d, root := t.path : Disk.Search }).paths (formulaDir ++ "/**/" ++ name ++ suffix) with
  | some paths => .ok paths
  | none => .error .badPattern

def find (t : Tap) (d : Disk) (name : String) : Except Fault String := do
  if name = "" then throw .noSuchFormula
  match (usualPaths name).find? fun p => d.exists? (Path.join [t.path, p]) with
  | some p => return p
  | none =>
    match ← t.search d name with
    | p :: _ => return p
    | [] => throw (.during name .noSuchFormula)

def has (t : Tap) (d : Disk) (name : String) : Bool := (t.find d name).isOk

def load (t : Tap) (d : Disk) (name : String) : Except Fault Formula := do
  Formula.load d (Path.join [t.path, ← t.find d name])

def lines (s : String) : List String :=
  match (splitAt s '\n').reverse with
  | "" :: rest => rest.reverse
  | all => all.reverse

def readAliases (text : String) : Except Fault (Dict String String) :=
  (lines text).foldlM (fun table line =>
    let line := trimBlank line
    if line = "" || startsWith line "#" then .ok table
    else
      match words line with
      | [nickname, target] => .ok (table.insert nickname target)
      | _ => .error (.malformedAlias line)) {}

def aliases (t : Tap) (d : Disk) : Except Fault (Dict String String) := do
  let p := Path.join [t.path, "aliases"]
  match d.find true p with
  | .error .missing => return {}
  | _ => readAliases ((String.fromUTF8? (← d.read p)).getD "")

def nameOfPath (p : String) : String :=
  if startsWith p (formulaDir ++ "/") && Path.ext p == suffix then Path.stem p else ""

end Tap

end Taproom
