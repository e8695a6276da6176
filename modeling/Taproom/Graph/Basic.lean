import Taproom.Graph.Order
import Taproom.Index.Basic
import Taproom.Tap

/-!
The graph of the formulae of a tap for one platform.
-/

namespace Taproom

structure Graph where
  tap : Tap
  atom : Atom

namespace Graph

def fresh (tap : Tap) (p : Platform) : Graph := ⟨tap, { platform := p }⟩

def names (g : Graph) : List String := g.atom.packages.keys

/-- The part of a name after its last slash, which would name a tap. -/
def unqualified (name : String) : String :=
  match Text.cutLast? ['/'] name.toList with
  | some (_, last) => String.ofList last
  | none => name

def canonical (aliases : Dict String String) (name : String) : String :=
  aliases.getD (unqualified name) (unqualified name)

def canonicalName (g : Graph) (name : String) : String := canonical g.atom.aliases name

def resolve (g : Graph) (name : String) : Except Fault Package :=
  match g.atom.packages.get? (g.canonicalName name) with
  | some p => .ok p
  | none => .error (.during name .noSuchFormula)

/-! ### Importing formulae -/

def dependencyNames (atom : Atom) (f : Formula) (kinds : List String) : Names :=
  .ofList ((f.dependencies atom.platform kinds).map fun d => canonical atom.aliases d.name)

def packageOf (atom : Atom) (d : Disk) (tap : Tap) (name : String) : Except String Package := do
  let f ← (tap.load d name).mapError Fault.message
  let problems := f.problems name
  if problems.isEmpty then
    match f.packageVersion? with
    | none => throw (Fault.noVersion f.name).message
    | some version =>
      return {
        name := f.name, version, dirty := true, disabled := f.disabled.isSome
        build := dependencyNames atom f ["build"]
        run := dependencyNames atom f ["run", "recommended"]
        test := dependencyNames atom f ["test"] }
  else throw ("; ".intercalate (problems.map Formula.Problem.message))

/-- A failure stays with a package until its version moves. -/
def keepFailure (old : Option Package) (p : Package) : Package :=
  match old with
  | some o => if o.version = p.version then { p with failed := o.failed } else p
  | none => p

def importName (d : Disk) (g : Graph) (name : String) : Graph :=
  let atom := g.atom
  if g.tap.has d name then
    match packageOf atom d g.tap name with
    | .ok p => { g with atom := { atom with
        bad := atom.bad.erase name
        packages := atom.packages.insert name (keepFailure (atom.packages.get? name) p) } }
    | .error why => { g with atom := { atom with
        bad := atom.bad.insert name why
        packages := atom.packages.erase name } }
  else { g with atom := { atom with
      bad := atom.bad.erase name
      packages := atom.packages.erase name } }

def importNames (d : Disk) (g : Graph) (names : List String) : Graph :=
  names.foldl (importName d) g

def importAll (d : Disk) (g : Graph) : Graph :=
  importNames d g ((g.tap.paths d).map Path.stem)

def loadAliases (d : Disk) (g : Graph) : Except Fault Graph :=
  (g.tap.aliases d).map fun aliases => { g with atom := { g.atom with aliases } }

/-- Imports the formulae behind changed paths. When the aliases changed, all are imported, since
edges go through aliases. -/
def importChanged (d : Disk) (g : Graph) (paths : List String) : Except Fault Graph :=
  if paths.any fun p => Path.base p == "aliases" then (g.loadAliases d).map (importAll d)
  else .ok (importNames d g ((paths.map Tap.nameOfPath).filter (· ≠ "")))

/-! ### Orders -/

def edgesBy (g : Graph) (kinds : String → List String) : Order.Edges := fun name =>
  (g.atom.packages.get? name).map fun p => p.edges (kinds name)

def orderBy (g : Graph) (roots : List String) (kinds : String → List String) :
    Except Fault (List String) :=
  Order.order (g.edgesBy kinds) g.atom.packages.size (roots.map g.canonicalName)

def order (g : Graph) (roots kinds : List String) : Except Fault (List String) :=
  g.orderBy roots fun _ => kinds

def levelsBy (g : Graph) (roots : List String) (kinds : String → List String) :
    Except Fault (List (List String)) := do
  let names ← g.orderBy roots kinds
  match Order.levelsOf? (g.edgesBy kinds) names with
  | some levels => return levels
  | none => throw (.told "index out of range")

def levels (g : Graph) (roots kinds : List String) : Except Fault (List (List String)) :=
  g.levelsBy roots fun _ => kinds

/-- The levels of an installation. Only what is built from source needs its build dependencies. -/
def installLevels (g : Graph) (roots : List String) (fromSource : String → Bool) :
    Except Fault (List (List String)) :=
  g.levelsBy roots fun name => if fromSource name then ["build", "run"] else ["run"]

/-! ### Questions -/

def fault? (g : Graph) (name : String) : Option Fault :=
  match g.order [name] Package.allKinds with
  | .ok _ => none
  | .error f => some f

def check (g : Graph) : List Fault × Graph :=
  let faults := g.names.filterMap fun n => (g.fault? n).map fun f => (n, f)
  (faults.map (·.2), { g with atom := { g.atom with
    bad := faults.foldl (fun bad (n, f) => bad.insert n f.message) g.atom.bad } })

def dependents (g : Graph) (name : String) : List String :=
  (g.atom.packages.filter fun _ p =>
    (p.edges Package.allKinds).contains (g.canonicalName name)).keys

def leaves (g : Graph) : List String :=
  let used := g.atom.packages.values.flatMap fun p => p.edges Package.allKinds
  g.names.filter fun n => !used.contains n

def setFailed (g : Graph) (name : String) (failed : Bool) : Except Fault Graph :=
  let name := g.canonicalName name
  match g.atom.packages.get? name with
  | some p => .ok { g with atom := { g.atom with
      packages := g.atom.packages.insert name { p with failed } } }
  | none => .error (.during name .noSuchFormula)

def isCovered (ix : Index) (tag name : String) (p : Package) : Bool :=
  match ix.get? tag name with
  | some e => e.version == p.version
  | none => false

def clean (g : Graph) (ix : Index) : Graph :=
  { g with atom := { g.atom with
    packages := g.atom.packages.map fun name p =>
      { p with dirty := !isCovered ix g.atom.platform.tag name p } } }

def dirty (g : Graph) : List String :=
  sortNames ((g.atom.packages.values.filter (·.dirty)).map (·.name))

end Graph

end Taproom
