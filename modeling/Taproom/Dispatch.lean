import Taproom.Graph.Package

/-!
Which packages could be built right now.
-/

namespace Taproom

namespace Package

def isWanted (p : Package) : Bool := p.dirty && !p.failed && !p.disabled

def needs (p : Package) : List String := p.build.toList ++ p.run.toList

end Package

namespace Atom

def isClean (a : Atom) (name : String) : Bool :=
  match a.packages.get? name with
  | some p => !p.dirty
  | none => false

def isReady (a : Atom) (p : Package) : Bool := p.needs.all a.isClean

def dispatchable (a : Atom) : List String :=
  sortNames ((a.packages.values.filter fun p => p.isWanted && a.isReady p).map (·.name))

end Atom

def dispatchableOf (atoms : List Atom) : Dict String (List String) :=
  .ofList (atoms.map fun a => (a.platform.tag, a.dispatchable))

end Taproom
