import Taproom.Cli.Console
import Taproom.Graph.Basic
import Taproom.Keg.Cellar
import Taproom.Service
import Taproom.Text.Age

/-!
Commands that tell about formulae and change nothing.
-/

namespace Taproom.Cli

open Job (print printLine check disk)

/-- The formulae that are to be checked and their paths: those named, or all of the tap. -/
def chosenPaths (all : Dict String String) : List String → Except Fault (Dict String String)
  | [] => .ok all
  | names => names.foldlM (fun chosen name =>
      match all.get? name with
      | some path => .ok (chosen.insert name path)
      | none => .error (.during name .noSuchFormula)) {}

def complaints (s : Setting) (d : Disk) (name path : String) : List String :=
  match Formula.load d (Path.join [s.config.tapPath, path]) with
  | .error f => [f.message]
  | .ok f => (f.problems name).map (·.message)

def lint (s : Setting) (names : List String) : Job Unit := do
  let d ← disk
  let chosen ← check (chosenPaths (s.tap.names d) names)
  let lines := chosen.toList.flatMap fun (name, path) =>
    (complaints s d name path).map fun c => s!"{name}: {c}"
  lines.forM printLine
  let count := chosen.toList.length
  if !lines.isEmpty then throw (.told s!"{lines.length} problems in {count} formulae")
  printLine s!"{count} formulae ok"

def graph (s : Setting) : Job Graph := do
  let d ← disk
  let g ← check ((Graph.fresh s.tap s.platform).loadAliases d)
  return (g.importAll d).check.2

def canonical (g : Graph) (names : List String) : Except Fault (List String) :=
  names.mapM fun n => (g.resolve n).map (·.name)

def kindsOf (s : String) : List String :=
  ((Text.splitAt ',' s.toList).map fun k => String.ofList (Text.trim k)).filter (· ≠ "")

def deps (s : Setting) (kinds : String) (names : List String) : Job Unit := do
  let g ← graph s
  let roots ← check (canonical g names)
  let order ← check (g.order roots (kindsOf kinds))
  (order.filter (!roots.contains ·)).forM printLine

def order (s : Setting) (kinds : String) (names : List String) : Job Unit := do
  let g ← graph s
  let roots ← check (canonical g names)
  let levels ← check (g.levels roots (kindsOf kinds))
  for (level, i) in levels.zipIdx do
    printLine (s!"{i}: " ++ " ".intercalate level)

def uses (s : Setting) (names : List String) : Job Unit := do
  let g ← graph s
  let roots ← check (canonical g names)
  (g.dependents (roots.headD "")).forM printLine

def leaves (s : Setting) : Job Unit := do
  (← graph s).leaves.forM printLine

def sizeBelow (d : Disk) (path : String) : Nat :=
  match d.find true path with
  | .error _ => 0
  | .ok (place, _) =>
    (d.below place).foldl (fun n (names, _) =>
      match d.read (Path.join (path :: names)) with
      | .ok content => n + content.size
      | .error _ => n) 0

def sizeUnit (bytes : Nat) : List String → Nat → Nat × String
  | name :: next :: rest, unit =>
    if bytes < 1000 * unit then (unit, name) else sizeUnit bytes (next :: rest) (1000 * unit)
  | names, unit => (unit, names.headD "")

def sizeText (bytes : Nat) : String :=
  let (unit, name) := sizeUnit bytes ["B", "kB", "MB", "GB", "TB", "PB", "EB"] 1
  let tenths := (10 * bytes + unit / 2) / unit
  let whole := tenths / 10
  let digit := tenths % 10
  if bytes < 10 then s!"{bytes} B"
  else if tenths < 100 then s!"{whole}.{digit} {name}"
  else if digit > 5 || (digit = 5 && whole % 2 = 1) then s!"{whole + 1} {name}"
  else s!"{whole} {name}"

def kegLine (s : Setting) (d : Disk) (name version : String) : String :=
  let keg := Path.join [s.config.cellar, name, version]
  let line := s!"{keg} ({sizeText (sizeBelow d keg)})"
  match s.builder.receipt name version d with
  | .error _ => line
  | .ok r =>
    let how := if r.isPoured then "poured from bottle" else "built from source"
    s!"{line}, {how} {Text.age s.builder.now r.installedAt}"

def titled (title text : String) : List String := if text = "" then [] else [title ++ text]

def facts (f : Formula) (version : String) (p : Platform) : List String :=
  let needed (kind : String) : List String :=
    titled s!"Depends ({kind}): " (", ".intercalate ((f.dependencies p [kind]).map (·.name)))
  [s!"{f.name}: {version}", f.desc, f.homepage] ++ titled "License: " f.license ++
    titled "Keg-only: " f.kegOnly ++ f.deprecation?.toList ++
    (f.disabled.map fun l => "Disabled: " ++ l.because).toList ++
    ["build", "run", "test"].flatMap needed ++
    ["Bottle: " ++ ((Bottle.select? f p).map (·.1)).getD "none"]

def info (s : Setting) (names : List String) : Job Unit := do
  let g ← graph s
  let d ← disk
  let names ← check (canonical g names)
  let f ← check (s.tap.load d (names.headD ""))
  let version ← check (Builder.packageVersionOf f)
  (facts f version s.platform).forM printLine
  let kegs ← check (s.builder.installed f.name d)
  if kegs.isEmpty then printLine "Not installed"
  kegs.forM fun k => printLine (kegLine s d f.name k)
  if f.caveats ≠ "" then print s!"Caveats:\n{f.caveats}\n"

def service (s : Setting) (name : String) : Job Unit := do
  let f ← check (s.tap.load (← disk) name)
  let keg ← check (s.builder.kegPath f false)
  match Service.render? f keg s.platform with
  | some text => print text
  | none => throw (.noService f.name)

end Taproom.Cli
