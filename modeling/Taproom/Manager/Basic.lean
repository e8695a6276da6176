import Taproom.Checkout
import Taproom.Dispatch
import Taproom.Graph.Basic
import Taproom.Graph.Record
import Taproom.Index.Repository
import Taproom.Store

/-!
A manager keeps the graphs of several platforms over one tap, the index that they are compared
with, and the store in which they outlast a restart.
-/

namespace Taproom

structure Manager where
  platforms : List Platform
  graphs : Dict String Graph
  index : Index := {}
  rev : String := ""
  store : Option Store := none

namespace Manager

def fresh (tap : Tap) (platforms : List Platform) (store : Option Store) : Manager where
  platforms
  graphs := .ofList (platforms.map fun p => (p.tag, Graph.fresh tap p))
  store

def graph (m : Manager) (tag : String) : Except Fault Graph :=
  match m.graphs.get? tag with
  | some g => .ok g
  | none => .error (.unknownPlatform tag)

def storeKey (tag : String) : String := Path.join ["graph", tag]

def keep (s : Store) (tag : String) (g : Graph) : Store :=
  match s.put (storeKey tag) g.atom.encode with
  | .ok s => s
  | .error _ => s

def persist (m : Manager) : Manager :=
  { m with store := m.store.map fun s =>
      m.graphs.toList.foldl (fun s (tag, g) => keep s tag g) s }

/-- The graph of a platform as it was kept, or as it is if nothing useful was. -/
def restore (s : Store) (tag : String) (g : Graph) : Graph :=
  match s.get (storeKey tag) with
  | .ok (some text) =>
    match Atom.decode? { platform := g.atom.platform } text with
    | some atom => { g with atom }
    | none => g
  | _ => g

def restoreAll (m : Manager) : Manager :=
  match m.store with
  | none => m
  | some s => { m with graphs := m.graphs.map fun tag g => restore s tag g }

def setRev (g : Graph) (rev : String) : Graph := { g with atom := { g.atom with rev } }

def importFresh (d : Disk) (rev : String) (g : Graph) : Graph :=
  let g := (g.loadAliases d).toOption.getD g
  setRev (g.importAll d).check.2 rev

def importPaths (d : Disk) (paths : List String) (g : Graph) : Graph :=
  ((g.importChanged d paths).toOption.getD g).check.2

/-- Brings the tap to the disk and reads it into the graphs that are not at its revision. -/
def bootstrap (c : Checkout) (m : Manager) (d : Disk) : Except Fault Unit × Manager × Disk :=
  match c.bootstrap.run d with
  | (.error f, d) => (.error f, m, d)
  | (.ok (), d) =>
    match c.current.run d with
    | (.error f, d) => (.error f, { m with rev := c.lastKnown d }, d)
    | (.ok rev, d) =>
      let m := { m with rev }.restoreAll
      let graphs := m.graphs.map fun _ g => if g.atom.rev = rev then g else importFresh d rev g
      (.ok (), { m with graphs }.persist, d)

def syncTo (c : Checkout) (rev : String) (m : Manager) (d : Disk) :
    Except Fault Unit × Manager × Disk :=
  match (c.moveTo rev).run d with
  | (.error f, d) => (.error f, m, d)
  | (.ok changed, d) =>
    let graphs := m.graphs.map fun _ g => setRev (importPaths d changed g) rev
    (.ok (), { m with rev, graphs }.persist, d)

def importChanged (paths : List String) (d : Disk) (m : Manager) : Manager :=
  { m with graphs := m.graphs.map fun _ g => importPaths d paths g }.persist

def clean (m : Manager) : Manager :=
  { m with graphs := m.graphs.map fun _ g => g.clean m.index }.persist

def cleanTag (m : Manager) (tag : String) : Manager :=
  { m with graphs := m.graphs.modify tag fun g => g.clean m.index }.persist

def cleanPlatform (net : Http.Transport) (d : Disk) (tag : String) (m : Manager) :
    Except Fault Manager := do
  let _ ← m.graph tag
  match m.index.reload net d tag with
  | (.error f, _) => throw f
  | (.ok (), index) => return { m with index }.cleanTag tag

def addBottle (tag : String) (e : Index.Entry) (m : Manager) : Except Fault Manager := do
  let _ ← m.graph tag
  return { m with index := m.index.add tag e }.cleanTag tag

/-- Adds the repositories of the platforms that have a graph; those that cannot be read are left
out. -/
def loadIndexes (net : Http.Transport) (d : Disk) (urls : Dict String (Dict String String))
    (m : Manager) : Manager :=
  let wanted := urls.toList.filter fun (tag, _) => m.graphs.contains tag
  let index := wanted.foldl (fun ix (tag, repos) =>
    repos.toList.foldl (fun ix (repo, url) => (ix.load net d tag repo url).2) ix) m.index
  { m with index }.clean

def dirty (m : Manager) (tag : String) : List String :=
  match m.graphs.get? tag with
  | some g => g.dirty
  | none => []

def dispatchable (m : Manager) : Dict String (List String) :=
  dispatchableOf (m.graphs.values.map (·.atom))

def setFailed (tag name : String) (failed : Bool) (m : Manager) : Except Fault Manager := do
  let g ← (← m.graph tag).setFailed name failed
  return { m with graphs := m.graphs.insert tag g }.persist

end Manager

end Taproom
