import Taproom.Fault
import Taproom.Graph.Package

/-!
Orders of packages in which every package comes after its dependencies, and levels of packages
that may be installed side by side.
-/

namespace Taproom.Order

abbrev Edges := String → Option (List String)

/-- The part of the path that closes at `name`, from `name` to `name`. The path comes innermost
first. -/
def cyclePath (path : List String) (name : String) : List String :=
  name :: (path.takeWhile (· ≠ name)).reverse ++ [name]

/-- Visits `name` after the packages in `done`, which it extends. The names on the way here are in
`path`, innermost first. -/
def visit (edges : Edges) (fuel : Nat) (path done : List String) (name : String) :
    Except Fault (List String) :=
  match fuel with
  | 0 => .error (.cycle [])
  | fuel + 1 =>
    if done.contains name then .ok done
    else if path.contains name then .error (.cycle (cyclePath path name))
    else
      match edges name, path with
      | none, [] => .error (.during name .noSuchFormula)
      | none, parent :: _ => .error (.missingDependency parent name)
      | some deps, path =>
        (deps.foldlM (visit edges fuel (name :: path)) done).map (· ++ [name])

def order (edges : Edges) (bound : Nat) (roots : List String) : Except Fault (List String) :=
  (sortNames roots).foldlM (visit edges (bound + 2) []) []

/-- Puts a package on the level of its depth. There is no such level, nor one to begin, if the
depth is past the end. -/
def place? (levels : List (List String)) (depth : Nat) (name : String) :
    Option (List (List String)) :=
  if depth < levels.length then some (levels.modify depth (· ++ [name]))
  else if depth = levels.length then some (levels ++ [[name]])
  else none

/-- The levels of the first packages of an order, with the depths of these packages. -/
structure Layers where
  depth : Dict String Nat := {}
  levels : List (List String) := []

def depthAbove (depth : Dict String Nat) (deps : List String) : Nat :=
  deps.foldl (fun deepest d => max deepest (depth.getD d 0 + 1)) 0

def Layers.add? (edges : Edges) (l : Layers) (name : String) : Option Layers := do
  let deps ← edges name
  let depth := depthAbove l.depth deps
  let levels ← place? l.levels depth name
  return ⟨l.depth.insert name depth, levels⟩

/-- The packages of an order by depth, each level sorted. -/
def levelsOf? (edges : Edges) (names : List String) : Option (List (List String)) :=
  (names.foldlM (Layers.add? edges) {}).map fun l => l.levels.map sortNames

end Taproom.Order
