import Taproom.Dict
import Taproom.Disk.Refusal
import Taproom.Path

/-!
A disk: a tree of directories, files and symbolic links. Places are lists of names from the root.
A file is an entry that names its body, so that two entries may share one body.
-/

namespace Taproom

inductive Disk.Entry where
  | dir (mode : Nat)
  | file (body : Nat)
  | link (target : String)
  deriving DecidableEq, Repr

structure Disk.Body where
  content : ByteArray
  mode : Nat

structure Disk where
  tree : Dict (List String) Disk.Entry := {}
  bodies : Dict Nat Disk.Body := {}
  /-- No body has this number or a greater one. -/
  nextBody : Nat := 0
  /-- Counts the temporary names that were handed out. -/
  serial : Nat := 0
  cwd : List String := []

instance : Inhabited Disk := ⟨{}⟩

namespace Disk

abbrev Place := List String

/-- Permissions that new files and directories never get. -/
def masked (mode : Nat) : Nat := mode &&& 0o7755

def isBelow (a b : Place) : Bool := a.isPrefixOf b

def entry? (d : Disk) (p : Place) : Option Entry :=
  if p = [] then some (.dir 0o755) else d.tree.get? p

def isDir (d : Disk) (p : Place) : Bool :=
  match d.entry? p with
  | some (.dir _) => true
  | _ => false

def maxLinks : Nat := 40

/-- The longest name of an entry, in bytes. -/
def maxName : Nat := 255

/-- Goes from `here` along `rest` and returns the place that is meant. All but the last component have
to exist. A link at the end is followed only if `follow`. Where a link has to be followed, `jump` goes
on from where its target starts, along the target and what is left. -/
def pursue (tree : Dict (List String) Entry) (follow : Bool)
    (jump : List String → List String → Except Reason Place) (here : List String) :
    List String → Except Reason Place
  | [] => .ok here
  | c :: rest =>
    if c = "" ∨ c = "." then pursue tree follow jump here rest
    else if c = ".." then pursue tree follow jump here.dropLast rest
    else if c.utf8ByteSize > maxName then .error .nameTooLong
    else if c.toList.contains '\x00' then .error .invalid
    else
      match tree.get? (here ++ [c]) with
      | none => if rest.isEmpty then .ok (here ++ [c]) else .error .missing
      | some (.dir _) => pursue tree follow jump (here ++ [c]) rest
      | some (.file _) => if rest.isEmpty then .ok (here ++ [c]) else .error .notDirectory
      | some (.link target) =>
        if rest.isEmpty && !follow then .ok (here ++ [c])
        else jump (if Path.isAbs target then [] else here) (splitAt target '/' ++ rest)

/-- The place that is meant by going from `here` along `rest`, through so many links at most. -/
def reach (tree : Dict (List String) Entry) (follow : Bool) :
    Nat → List String → List String → Except Reason Place
  | 0 => pursue tree follow fun _ _ => .error .tooManyLinks
  | links + 1 => pursue tree follow (reach tree follow links)

theorem reach_zero (tree : Dict (List String) Entry) (follow : Bool) :
    reach tree follow 0 = pursue tree follow fun _ _ => .error .tooManyLinks := rfl

theorem reach_succ (tree : Dict (List String) Entry) (follow : Bool) (links : Nat) :
    reach tree follow (links + 1) = pursue tree follow (reach tree follow links) := rfl

-- Proofs go by what a path leads to and do not walk it; only the kernel does.
attribute [irreducible] reach

def locate (d : Disk) (follow : Bool) (p : String) : Except Reason Place :=
  if p = "" then .error .missing
  else reach d.tree follow maxLinks (if Path.isAbs p then [] else d.cwd) (splitAt p '/')

def find (d : Disk) (follow : Bool) (p : String) : Except Reason (Place × Entry) := do
  let place ← d.locate follow p
  match d.entry? place with
  | some e => return (place, e)
  | none => throw .missing

def exists? (d : Disk) (p : String) : Bool := (d.find true p).isOk

def isDirectory (d : Disk) (p : String) : Bool :=
  match d.find true p with
  | .ok (_, .dir _) => true
  | _ => false

def bodyOf? (d : Disk) : Entry → Option Body
  | .file id => d.bodies.get? id
  | _ => none

def children (d : Disk) (p : Place) : List (String × Entry) :=
  d.tree.toList.filterMap fun (k, e) =>
    if isBelow p k && k.length == p.length + 1 then k.getLast?.map fun n => (n, e) else none

def below (d : Disk) (p : Place) : List (List String × Entry) :=
  d.tree.toList.filterMap fun (k, e) =>
    if isBelow p k && p.length < k.length then some (k.drop p.length, e) else none

def prune (d : Disk) (p : Place) : Disk :=
  { d with tree := d.tree.filter fun k _ => !isBelow p k }

def newFile (d : Disk) (p : Place) (content : ByteArray) (mode : Nat) : Disk :=
  { d with
    tree := d.tree.insert p (.file d.nextBody)
    bodies := d.bodies.insert d.nextBody ⟨content, mode⟩
    nextBody := d.nextBody + 1 }

def setBody (d : Disk) (id : Nat) (b : Body) : Disk := { d with bodies := d.bodies.insert id b }

def makeDir (d : Disk) (p : String) (mode : Nat) : Except Reason Disk := do
  let bare := String.ofList (p.toList.reverse.dropWhile (· = '/')).reverse
  let place ← if bare = "" && p ≠ "" then .ok [] else d.locate false bare
  match d.entry? place with
  | some _ => throw .present
  | none =>
    if d.isDir place.dropLast then
      return { d with tree := d.tree.insert place (.dir (masked mode)) }
    else throw .missing

def content (d : Disk) (p : String) : Except Reason ByteArray := do
  match (← d.find true p).2 with
  | .file id =>
    match d.bodies.get? id with
    | some b => return b.content
    | none => throw .missing
  | _ => throw .isDirectory

def write (d : Disk) (p : String) (content : ByteArray) (mode : Nat) : Except Reason Disk := do
  let place ← d.locate true p
  match d.entry? place with
  | some (.file id) =>
    return d.setBody id ⟨content, ((d.bodies.get? id).map (·.mode)).getD (masked mode)⟩
  | some _ => throw .isDirectory
  | none =>
    if d.isDir place.dropLast then return d.newFile place content (masked mode)
    else throw .missing

def makeLink (d : Disk) (target p : String) : Except Reason Disk := do
  let place ← d.locate false p
  match d.entry? place with
  | some _ => throw .present
  | none =>
    if target = "" then throw .missing
    return { d with tree := d.tree.insert place (.link target) }

/-- Gives what `old` names a second name. A symbolic link is not followed. -/
def share (d : Disk) (old new : String) : Except Reason Disk := do
  let (_, e) ← d.find false old
  let place ← d.locate false new
  match d.entry? place, e with
  | some _, _ => throw .present
  | none, .dir _ => throw .notPermitted
  | none, e => return { d with tree := d.tree.insert place e }

/-- Moves `old` to `new`. A directory in the way is an obstacle, anything else is replaced. -/
def move (d : Disk) (old new : String) : Except Reason Disk := do
  let (source, e) ← d.find false old
  let target ← d.locate false new
  match d.entry? target, e with
  | some (.dir _), _ => throw .present
  | some _, .dir _ => throw .notDirectory
  | _, _ =>
    if source = target then return d
    if isBelow source target then throw .invalid
    let moved := d.tree.toList.filterMap fun (k, e) =>
      if isBelow source k then some (target ++ k.drop source.length, e) else none
    return { d.prune source with
      tree := moved.foldl (fun t (k, e) => t.insert k e) (d.prune source).tree }

def unlink (d : Disk) (p : String) : Except Reason Disk := do
  let (place, e) ← d.find false p
  match e with
  | .dir _ => if (d.below place).isEmpty then return d.prune place else throw .notEmpty
  | _ => return { d with tree := d.tree.erase place }

def setMode (d : Disk) (p : String) (mode : Nat) : Except Reason Disk := do
  let (place, e) ← d.find true p
  match e with
  | .dir _ => return { d with tree := d.tree.insert place (.dir mode) }
  | .file id => return { d with bodies := d.bodies.modify id fun b => { b with mode := mode } }
  | .link _ => return d

end Disk

end Taproom
