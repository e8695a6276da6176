import Taproom.Dict
import Taproom.Fault
import Taproom.Version

/-!
Indexes of bottles: what the repositories of each platform hold.
-/

namespace Taproom

namespace Index

structure Entry where
  name : String := ""
  version : String := ""
  sha256 : String := ""
  file : String := ""
  deriving DecidableEq, Repr, Inhabited

abbrev Shelf := Dict String Entry

/-- An entry that does not name its package takes the name it is listed under. -/
def Entry.named (e : Entry) (name : String) : Entry :=
  if e.name = "" then { e with name := name } else e

def offer (shelf : Shelf) (name : String) (e : Entry) : Shelf :=
  match shelf.get? name with
  | some current =>
    if Version.compare current.version e.version = .gt then shelf
    else shelf.insert name (e.named name)
  | none => shelf.insert name (e.named name)

def offerAll (shelf entries : Shelf) : Shelf :=
  entries.toList.foldl (fun shelf (name, e) => offer shelf name e) shelf

end Index

structure Index where
  urls : Dict String (Dict String String) := {}
  shelves : Dict String Index.Shelf := {}

namespace Index

def shelf (ix : Index) (tag : String) : Shelf := ix.shelves.getD tag {}

def count (ix : Index) (tag : String) : Nat := (ix.shelf tag).size

def get? (ix : Index) (tag name : String) : Option Entry := (ix.shelf tag).get? name

def remember (ix : Index) (tag repo url : String) : Index :=
  { ix with urls := ix.urls.insert tag ((ix.urls.getD tag {}).insert repo url) }

def receive (ix : Index) (tag : String) (entries : Shelf) : Index :=
  { ix with shelves := ix.shelves.insert tag (offerAll (ix.shelf tag) entries) }

def add (ix : Index) (tag : String) (e : Entry) : Index :=
  ix.receive tag (Dict.empty.insert e.name e)

def replace (ix : Index) (tag : String) (shelf : Shelf) : Index :=
  { ix with shelves := ix.shelves.insert tag shelf }

end Index

end Taproom
