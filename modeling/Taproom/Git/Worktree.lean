import Taproom.Git.Ignore
import Taproom.Git.Repository

/-!
The files around a repository: how they become a commit and how a commit becomes files.
-/

namespace Taproom.Git

def entriesIn (d : Disk) (path : String) : List (List String × Disk.Entry) :=
  match d.find true path with
  | .ok (place, _) => (d.below place).filter fun (rel, _) => !rel.contains ".git"
  | .error _ => []

def blobOf (d : Disk) (e : Disk.Entry) : Option Blob :=
  match e with
  | .dir _ => none
  | .link target => some { content := target.toUTF8, isLink := true }
  | .file _ => (d.bodyOf? e).map fun b => { content := b.content, executable := b.mode &&& 0o100 ≠ 0 }

def snapshot (d : Disk) (path : String) : Tree :=
  .ofList ((entriesIn d path).filterMap fun (rel, e) => (blobOf d e).map fun b => (rel, b))

def commit (path : String) : Act String := do
  let d ← get
  let r := (Repository.open? d path).getD {}
  let c : Commit := { tree := snapshot d path, parents := r.headHash?.toList, message := "commit" }
  let hash := c.hash
  let commits := r.commits.insert hash c
  match r.head with
  | .branch name =>
    ({ r with commits, refs := r.refs.insert ("refs/heads/" ++ name) hash } : Repository).save path
  | .commit _ => ({ r with commits, head := .commit hash } : Repository).save path
  return hash

def tag (path name hash : String) : Act Unit := do
  let r := (Repository.open? (← get) path).getD {}
  ({ r with refs := r.refs.insert ("refs/tags/" ++ name) hash } : Repository).save path

inductive Adjustment where
  | remove (rel : List String)
  | replace (rel : List String) (b : Blob)
  | add (rel : List String) (b : Blob)

namespace Adjustment

def path : Adjustment → List String
  | remove rel | replace rel _ | add rel _ => rel

def isRemoval : Adjustment → Bool
  | remove _ => true
  | _ => false

/-- The order of two names on the way to a file, and of two ways. A file in the place of a directory
comes after what has to go from there. -/
def before (a b : Adjustment) : Bool :=
  if a.path.isPrefixOf b.path || b.path.isPrefixOf a.path then a.isRemoval || !b.isRemoval
  else !b.path.lex a.path fun x y => decide (x < y)

/-- Applies an adjustment to the tree at a path. A directory that has become empty goes as well, but
none above it. -/
def apply (base : String) : Adjustment → Act Unit
  | remove rel => do
    Act.removeAll (placeOf rel)
    let dir := placeOf rel.dropLast
    if (← Act.listDir dir).isEmpty then Act.remove dir
  | replace rel b => do
    Act.remove (placeOf rel)
    put rel b
  | add rel b => put rel b
where
  placeOf (rel : List String) : String := Path.join [base, "/".intercalate rel]
  put (rel : List String) (b : Blob) : Act Unit := do
    Act.makeDirAll (placeOf rel.dropLast) 0o755
    if b.isLink then Act.symlink ((String.fromUTF8? b.content).getD "") (placeOf rel)
    else Act.putFile (placeOf rel) b.content (if b.executable then 0o755 else 0o644)

end Adjustment

def adjustments (old new : Tree) : List Adjustment :=
  let removed := old.toList.filterMap fun (rel, _) =>
    if new.contains rel then none else some (.remove rel)
  let put := new.toList.filterMap fun (rel, b) =>
    match old.get? rel with
    | none => some (.add rel b)
    | some a => if a == b then none else some (.replace rel b)
  (removed ++ put).mergeSort Adjustment.before

/-- Makes the files at a path those of a tree, no more and no less. Files that the rules there cover
stay as they are. -/
def restore (path : String) (t : Tree) : Act Unit := do
  let d ← get
  let rules := Ignore.rulesIn d path ((entriesIn d path).map (·.1))
  let due := (adjustments (snapshot d path) t).filter fun a => !Ignore.holds rules a.path
  due.forM (Adjustment.apply path)

def checkout (r : Repository) (path : String) (head : Head) (hash : String) : Act Unit := do
  match r.commits.get? hash with
  | none => throw (.told "object not found")
  | some c =>
    ({ r with head } : Repository).save path
    restore path c.tree

def switch (path branch : String) : Act Unit := do
  let r := (Repository.open? (← get) path).getD {}
  match r.refs.get? ("refs/heads/" ++ branch), r.headHash? with
  | some hash, _ => checkout r path (.branch branch) hash
  | none, some hash =>
    ({ r with head := .branch branch, refs := r.refs.insert ("refs/heads/" ++ branch) hash } : Repository).save path
  | none, none => ({ r with head := .branch branch } : Repository).save path

end Taproom.Git
