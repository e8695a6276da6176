import Taproom.Bottle.Keg
import Taproom.Cli.Show
import Taproom.Keg.Test

/-!
Commands that fetch, install, test and pack.
-/

namespace Taproom.Cli

open Job (print printLine check disk)

def sourcesOf (f : Formula) : List (String × Source) :=
  (f.name, f.source) :: f.resources.map fun r => (s!"{f.name}--{r.name}", r.source)

def fetch (s : Setting) (names : List String) : Job Unit := do
  let d ← disk
  let formulae ← check (names.mapM (s.tap.load d))
  let sources : Dict String Source :=
    formulae.foldl (fun all f => (sourcesOf f).foldl (fun all (n, src) => all.insert n src) all) {}
  let paths ← s.builder.fetcher.fetchAll sources
  paths.toList.forM fun (name, path) => printLine s!"{name}\t{path}"

def without (levels : List (List String)) (names : List String) : List (List String) :=
  (levels.map (·.filter (!names.contains ·))).filter (!·.isEmpty)

/-- Whether a formula will be built. Only the named ones are built as `o` says in full. -/
def buildsFromSource (s : Setting) (d : Disk) (roots : List String) (o : Builder.Options)
    (name : String) : Bool :=
  match s.tap.load d name with
  | .error _ => true
  | .ok f => s.builder.willBuild f (if roots.contains name then o else { o with head := false })

def installRoot (s : Setting) (d : Disk) (o : Builder.Options) (name : String) : Job Unit := do
  let f ← check (s.tap.load d name)
  printLine (← s.builder.install f o)

def install (s : Setting) (o : Builder.Options) (names : List String) : Job Unit := do
  let g ← graph s
  let d ← disk
  let roots ← check (canonical g names)
  let levels ← check (g.installLevels roots (buildsFromSource s d roots o))
  let levels := if o.head then without levels roots else levels
  s.builder.installAll levels (s.tap.load d) { o with head := false }
  roots.forM (installRoot s d o)

def test (s : Setting) (head : Bool) (names : List String) : Job Unit :=
  names.forM fun name => do
    let f ← check (s.tap.load (← disk) name)
    s.builder.test f head
    printLine s!"{f.name}: ok"

/-- The newest keg that can be bottled. What was built from a head source cannot. -/
def newestKeg? (kegs : List String) : Option String := (kegs.filter (· ≠ "HEAD")).getLast?

def bottle (s : Setting) (dir name : String) : Job Unit := do
  let d ← disk
  let f ← check (s.tap.load d name)
  let kegs ← check (s.builder.installed f.name d)
  let some version := newestKeg? kegs
    | throw (.told s!"{f.name} has no bottleable keg installed")
  let rebuild := (f.bottle.map (·.rebuild)).getD 0
  let tag := s.platform.tag
  Act.makeDirAll dir 0o755
  let out := Path.join [dir, Bottle.fileNameFor f.name version tag rebuild]
  let sum ← Bottle.pack (Path.join [s.config.cellar, f.name, version]) f.name version out
  print s!"{out}\n{tag}: {sum}\n"

end Taproom.Cli
