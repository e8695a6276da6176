import Taproom.Dict
import Taproom.Platform

/-!
Packages, which are formulae placed in a graph, and atoms, which are the whole state of the graph
of one platform.
-/

namespace Taproom

structure Package where
  name : String := ""
  version : String := ""
  dirty : Bool := false
  failed : Bool := false
  disabled : Bool := false
  build : Names := {}
  run : Names := {}
  test : Names := {}

structure Atom where
  platform : Platform
  rev : String := ""
  packages : Dict String Package := {}
  aliases : Dict String String := {}
  bad : Dict String String := {}

namespace Package

def ofKind (p : Package) (kind : String) : Names :=
  if kind = "build" then p.build
  else if kind = "run" then p.run
  else if kind = "test" then p.test
  else {}

def usualKinds : List String := ["build", "run"]

def allKinds : List String := ["build", "run", "test"]

/-- The dependencies of the given kinds in ascending order; no kinds means the usual ones. -/
def edges (p : Package) (kinds : List String) : List String :=
  let kinds := if kinds.isEmpty then usualKinds else kinds
  (Names.ofList (kinds.flatMap fun k => (p.ofKind k).toList)).toList

end Package

end Taproom
