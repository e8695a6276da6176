import Taproom.Digest.Sha256
import Taproom.Disk.Action
import Taproom.Graph.Record
import Taproom.Json
import Taproom.Text.Base64

/-!
Repositories with the history of a tree of files. A repository lies in a directory of its own
inside the tree that it is about.
-/

namespace Taproom.Git

structure Blob where
  content : ByteArray
  executable : Bool := false
  isLink : Bool := false

instance : BEq Blob where
  beq a b := a.content.toList == b.content.toList && a.executable == b.executable &&
    a.isLink == b.isLink

abbrev Tree := Dict (List String) Blob

structure Commit where
  tree : Tree := {}
  parents : List String := []
  message : String := ""

inductive Head where
  | branch (name : String)
  | commit (hash : String)
  deriving DecidableEq, Repr

structure Repository where
  head : Head := .branch "master"
  commits : Dict String Commit := {}
  refs : Dict String String := {}
  origin : String := ""

namespace Blob

def toJson (b : Blob) : Json :=
  .obj [("content", .str (Base64.encode b.content)), ("executable", .bool b.executable),
    ("link", .bool b.isLink)]

def ofJson? (v : Json) : Option Blob :=
  match v.member? "content", v.member? "executable", v.member? "link" with
  | some (.str s), some (.bool executable), some (.bool isLink) =>
    (Base64.decode? s).map fun content => { content, executable, isLink }
  | _, _, _ => none

end Blob

namespace Commit

def toJson (c : Commit) : Json :=
  .obj [("message", .str c.message), ("parents", Json.ofNames c.parents),
    ("tree", .obj (c.tree.toList.map fun (path, b) => ("/".intercalate path, b.toJson)))]

def textsOf (l : List Json) : List String :=
  l.filterMap fun
    | .str s => some s
    | _ => none

def ofJson? (v : Json) : Option Commit :=
  match v.member? "message", v.member? "parents", v.member? "tree" with
  | some (.str message), some (.arr parents), some (.obj files) => do
    let blobs ← files.mapM fun (path, b) => (Blob.ofJson? b).map fun b => (splitAt path '/', b)
    some { message, parents := textsOf parents, tree := .ofList blobs }
  | _, _, _ => none

def hash (c : Commit) : String :=
  String.ofList ((Sha256.hex (c.toJson.render).toUTF8).toList.take 40)

end Commit

namespace Repository

def headText (r : Repository) : String :=
  match r.head with
  | .branch name => "refs/heads/" ++ name
  | .commit hash => hash

def toJson (r : Repository) : Json :=
  .obj [("head", .str r.headText), ("origin", .str r.origin), ("refs", r.refs.toJson),
    ("commits", .obj (r.commits.toList.map fun (k, c) => (k, c.toJson)))]

def headOf (text : String) : Head :=
  if startsWith text "refs/heads/" then .branch (trimPrefix text "refs/heads/") else .commit text

def ofJson? (v : Json) : Option Repository :=
  match v.member? "head", v.member? "origin", v.member? "refs", v.member? "commits" with
  | some (.str head), some (.str origin), some (.obj refs), some (.obj commits) => do
    let commits ← commits.mapM fun (k, c) => (Commit.ofJson? c).map fun c => (k, c)
    let refs := refs.filterMap fun
      | (k, .str h) => some (k, h)
      | _ => none
    some { head := headOf head, origin, refs := .ofList refs, commits := .ofList commits }
  | _, _, _, _ => none

def dirIn (path : String) : String := Path.join [path, ".git"]

def fileIn (path : String) : String := Path.join [path, ".git", "repository.json"]

def open? (d : Disk) (path : String) : Option Repository := do
  let content ← (d.read (fileIn path)).toOption
  let text ← String.fromUTF8? content
  let v ← (Json.parse text).toOption
  ofJson? v

/-- The repository of the tree at `path`, if there is one. A file in the place of its directory has
to tell where that is. -/
def reopen (path : String) : Act (Option Repository) := do
  match ← Act.attempt (Act.contentOf (dirIn path)) with
  | .ok content =>
    if "gitdir: ".toUTF8.toList.isPrefixOf content.toList then return none
    else throw (.told ".git file has no gitdir:  prefix")
  | .error _ => return open? (← get) path

def save (r : Repository) (path : String) : Act Unit := do
  Act.makeDirAll (dirIn path) 0o755
  Act.putFile (fileIn path) r.toJson.render.toUTF8 0o644

def init (path : String) : Act Unit := save {} path

def headHash? (r : Repository) : Option String :=
  match r.head with
  | .branch name => r.refs.get? ("refs/heads/" ++ name)
  | .commit hash => some hash

/-- The names under which a short name is looked for, the best first. -/
def candidates (name : String) : List String :=
  [name, "refs/" ++ name, "refs/tags/" ++ name, "refs/heads/" ++ name, "refs/remotes/" ++ name,
    "refs/remotes/" ++ name ++ "/HEAD"]

def lookup? (r : Repository) (name : String) : Option String :=
  if r.commits.contains name then some name
  else if name = "HEAD" then r.headHash?
  else (candidates name).findSome? fun n => r.refs.get? n

def back? (r : Repository) (hash : String) : Nat → Option String
  | 0 => some hash
  | n + 1 => do
    let c ← r.commits.get? hash
    back? r (← c.parents.head?) n

def parent? (r : Repository) (hash : String) : Nat → Option String
  | 0 => some hash
  | n + 1 => do
    let c ← r.commits.get? hash
    c.parents[n]?

def history (r : Repository) : Nat → List String → List String → List (String × Commit)
  | 0, _, _ | _, [], _ => []
  | fuel + 1, hash :: stack, seen =>
    if seen.contains hash then history r fuel stack seen
    else
      match r.commits.get? hash with
      | some c => (hash, c) :: history r fuel (c.parents ++ stack) (hash :: seen)
      | none => []

def historyBound (r : Repository) : Nat :=
  r.commits.toList.foldl (fun n (_, c) => n + c.parents.length + 1) 1

def notFound : Fault := .revision .unknown

/-- Follows one item of a revision from the commit that the items before it lead to. Items that are
about anything but commits are passed over. -/
def follow (r : Repository) (hash : Option String) (item : Revision.Item) :
    Except Revision.Fault (Option String) :=
  let orElse (h : Option String) (f : Revision.Fault) : Except Revision.Fault (Option String) :=
    match h with
    | some h => .ok (some h)
    | none => .error f
  match item with
  | .name n => orElse (r.lookup? n) .unknown
  | .back n => orElse (hash.bind (r.back? · n)) .noParent
  | .parent n => orElse (hash.bind (r.parent? · n)) .noParent
  | .matching pattern re negated =>
    let found := (r.history r.historyBound hash.toList []).find? fun (_, c) =>
      re.occursIn c.message != negated
    orElse (found.map (·.1)) (.noMatch pattern)
  | _ => .ok hash

def resolve (r : Repository) (rev : String) : Except Fault String := do
  let items ← (Revision.parse rev).mapError fun d => .revision (.malformed d)
  let hash ← (items.foldlM r.follow none).mapError .revision
  match hash with
  | some h => return h
  | none => throw notFound

end Repository

end Taproom.Git
