import Taproom.Git.Worktree
import Taproom.Http.Client

/-!
Repositories elsewhere: cloning them and learning of what is new there.
-/

namespace Taproom.Git

inductive Endpoint where
  | disk (path : String)
  | web (url : String)
  | login
  | other (scheme : String)
  deriving DecidableEq, Repr

namespace Endpoint

/-- Whether a text has the form `^[^:]+://`. -/
def hasScheme (s : String) : Bool :=
  let (scheme, rest) := s.toList.span (· ≠ ':')
  !scheme.isEmpty && (rest.take 3 = "://".toList)

/-- The short form of an address behind a login: a host, a colon and a path with a slash in it. -/
def loginForm : String := "^(?:[^@]+@)?[^:\\s]+:(?:[0-9]\x7b1,5\x7d[/:])?[^\\\\].*/[^\\\\].*$"

def isLogin (s : String) : Bool :=
  match Regex.parse loginForm with
  | .ok r => r.occursIn s
  | .error _ => false

def pathOf (u : Url) : String :=
  u.path ++ (if u.query = "" then "" else "?" ++ u.query) ++ (if u.fragment = "" then "" else "#" ++ u.fragment)

def parse (s : String) : Except Fault Endpoint :=
  if !hasScheme s then .ok (if isLogin s then .login else .disk s)
  else
    match Url.parse s with
    | .error f => .error (.url f)
    | .ok u =>
      .ok (match u.scheme with
        | "file" => .disk (pathOf u)
        | "http" | "https" => .web s
        | "ssh" => .login
        | scheme => .other scheme)

end Endpoint

def findRepository? (d : Disk) (path : String) : Option Repository :=
  (Repository.open? d path).orElse fun _ =>
    if path ≠ "" && Path.base path = ".git" then Repository.open? d (Path.dir path)
    else Repository.open? d (path ++ ".git")

def reach (net : Http.Transport) (url : String) : Act Repository := do
  match ← MonadExcept.ofExcept (Endpoint.parse url) with
  | .disk path =>
    match findRepository? (← get) path with
    | some r => return r
    | none => throw (.told "repository not found")
  | .web url =>
    let _ ← MonadExcept.ofExcept (Http.get net (url ++ "/info/refs?service=git-upload-pack"))
    throw (.told "repository not found")
  | .login =>
    throw (.told "error creating SSH agent: \"SSH agent requested but SSH_AUTH_SOCK not-specified\"")
  | .other scheme => throw (.told s!"unsupported scheme {quoted scheme}")

def adopted (there : Repository) : List (String × String) :=
  there.refs.toList.filterMap fun (name, hash) =>
    if startsWith name "refs/heads/" then
      some ("refs/remotes/origin/" ++ trimPrefix name "refs/heads/", hash)
    else if startsWith name "refs/tags/" then some (name, hash)
    else none

def absorb (r there : Repository) : Repository :=
  { r with
    commits := there.commits.toList.foldl (fun cs (k, c) => cs.insert k c) r.commits
    refs := (adopted there).foldl (fun refs (k, h) => refs.insert k h) r.refs }

def fetch (net : Http.Transport) (path : String) (r : Repository) : Act Repository := do
  let r := absorb r (← reach net r.origin)
  r.save path
  return r

/-- Whether a clone may be made at a path, and whether nothing is there yet. -/
def checkPlace (path : String) : Act Bool := do
  match ← Act.attempt (Act.stat path) with
  | .ok (.dir _) => return (← Act.listDir path).isEmpty
  | .ok _ => throw (.told s!"path is not a directory: {path}")
  | .error (.disk ⟨_, _, .missing⟩) => return true
  | .error f => throw f

/-- Clones a repository to a path and checks its branch out. A failed clone leaves an empty
repository behind where something was before. -/
def clone (net : Http.Transport) (url path : String) : Act Repository := do
  let isFree ← checkPlace path
  if !isFree then Repository.save { origin := url } path
  if url = "" then throw (.told "URL field is required")
  let there ← reach net url
  match there.headHash? with
  | none => throw (.told "remote repository is empty")
  | some hash =>
    let r := absorb { origin := url, head := there.head } there
    let r := match there.head with
      | .branch name => { r with refs := r.refs.insert ("refs/heads/" ++ name) hash }
      | .commit _ => r
    Act.makeDirAll path 0o755
    checkout r path there.head hash
    return r

def remoteHead (net : Http.Transport) (r : Repository) : Act String := do
  let there ← (reach net r.origin).during "listing origin"
  match there.head with
  | .commit hash => return hash
  | .branch name => MonadExcept.ofExcept (r.resolve ("refs/remotes/origin/" ++ name))

end Taproom.Git
