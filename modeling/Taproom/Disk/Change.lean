import Taproom.Disk.Basic
import Taproom.Path

/-!
What has to be done to one disk so that it becomes another.
-/

namespace Taproom.Disk

inductive Change where
  | makeDir (path : String)
  | writeFile (path : String) (content : ByteArray)
  | remove (path : String)

/-- The change at a place that is on the new disk. Links are left alone. -/
def changeAt (old new : Disk) (p : Place) (e : Entry) : List Change :=
  let path := Path.ofComponents p
  match e with
  | .dir _ => if old.isDir p then [] else [.makeDir path]
  | .link _ => []
  | .file _ =>
    let before := ((old.entry? p).bind old.bodyOf?).map (·.content.toList)
    match new.bodyOf? e with
    | some b => if before = some b.content.toList then [] else [.writeFile path b.content]
    | none => []

/-- The changes in an order in which they can be made: what is gone goes first, the deepest places
before those that hold them, and then the new places come, the other way round. -/
def changes (old new : Disk) : List Change :=
  let gone := old.tree.toList.filter fun (p, _) => (new.entry? p).isNone
  (gone.reverse.map fun (p, _) => .remove (Path.ofComponents p)) ++
    new.tree.toList.flatMap fun (p, e) => changeAt old new p e

end Taproom.Disk
