import Taproom.Checkout
import Taproom.Git.Difference
import Taproom.Git.Remote

/-!
A tap that is a clone of a repository.
-/

namespace Taproom.Git

structure Tap where
  path : String := ""
  url : String := ""
  isReady : Bool := false
  deriving DecidableEq, Repr

namespace Tap

def clone (t : Tap) (purpose : String) : Act Repository := do
  if !t.isReady then throw (.told ("repo must be bootstrapped" ++ purpose))
  match Repository.open? (← get) t.path with
  | some r => return r
  | none => throw (.told "repository does not exist")

def bootstrap (net : Http.Transport) (t : Tap) : Act Tap := do
  if t.path = "" then throw (.told "path must be set to bootstrap")
  if ← Act.exists? (Repository.dirIn t.path) then
    match ← (Repository.reopen t.path).during "opening checkout" with
    | some _ => return { t with isReady := true }
    | none => throw (.during "opening checkout" (.told "repository does not exist"))
  if t.url = "" then throw (.told "url must be set to clone")
  let _ ← (Git.clone net t.url t.path).during "cloning tap"
  return { t with isReady := true }

def headOf (r : Repository) : Except Fault String :=
  match r.headHash? with
  | some hash => .ok hash
  | none => .error Repository.notFound

def current (t : Tap) : Act String := do
  MonadExcept.ofExcept (headOf (← t.clone ""))

def moveTo (t : Tap) (rev : String) : Act (List String) := do
  let r ← t.clone " to checkout"
  let old ← MonadExcept.ofExcept (Taproom.during "reading HEAD" (headOf r))
  let new ← MonadExcept.ofExcept (Taproom.during s!"resolving {rev}" (r.resolve rev))
  if old = new then return []
  (checkout r t.path (.commit new) new).during "checking out"
  let tree (hash : String) : Tree := ((r.commits.get? hash).map (·.tree)).getD {}
  return changedPaths (tree old) (tree new)

def fetch (net : Http.Transport) (t : Tap) : Act Unit := do
  let r ← t.clone " to fetch"
  let _ ← Git.fetch net t.path r

def toCheckout (net : Http.Transport) (t : Tap) : Checkout where
  bootstrap := do let _ ← t.bootstrap net
  fetch := { t with isReady := true }.fetch net
  moveTo := { t with isReady := true }.moveTo
  current := { t with isReady := true }.current

end Tap

end Taproom.Git
