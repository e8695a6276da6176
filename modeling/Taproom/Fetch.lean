import Taproom.Digest.Sha256
import Taproom.Disk.Action
import Taproom.Formula.Basic
import Taproom.Git.Remote

/-!
Fetching sources into a cache. What is kept under a checksum has that checksum.
-/

namespace Taproom.Fetch

def baseName (url : String) : String :=
  match Url.parse url with
  | .ok u => if u.path ≠ "" then Path.base u.path else Path.base url
  | .error _ => Path.base url

def cachePath (cache sum url : String) : String := Path.join [cache, sum ++ "--" ++ baseName url]

def headPath (cache name url : String) : String :=
  Path.join [cache, "head", name ++ "--" ++ baseName url]

def checksum (d : Disk) (path : String) : Except Fault String := return Sha256.hex (← d.read path)

def open? (net : Http.Transport) (d : Disk) (url : String) : Except Fault ByteArray := do
  let u ← (Url.parse url).mapError .url
  match u.scheme with
  | "file" =>
    match d.find true u.path with
    | .error reason => throw (.disk ⟨"open", u.path, reason⟩)
    | .ok _ => during s!"couldn't download {url}" (d.read u.path)
  | "http" | "https" =>
    let r ← Http.get net url
    if r.status ≠ 200 then throw (.told s!"GET {url}: {Http.statusLine r.status}")
    return r.body
  | scheme => throw (.told s!"unsupported url scheme {quoted scheme}")

/-- Brings the bytes at an address to a path. With an empty checksum anything will do. -/
def download (net : Http.Transport) (url path sum : String) : Act Unit := do
  let temporary ← (Act.makeTempFile (Path.dir path) (Path.base path ++ ".") ".incomplete").during
    s!"couldn't create temporary download file for {path}"
  Act.andAlways
    (do
      let bytes ← MonadExcept.ofExcept (open? net (← get) url)
      Act.putFile temporary bytes 0o600
      let actual := Sha256.hex bytes
      if sum ≠ "" ∧ actual ≠ sum then throw (.checksumMismatch url sum actual)
      (Act.rename temporary path).during s!"couldn't commit completed download of {url}")
    (Act.remove temporary)

/-- Tries addresses in turn. The fault is that of the last one. -/
def downloadAny (net : Http.Transport) (path sum : String) : String → List String → Act Unit
  | url, [] => download net url path sum
  | url, next :: rest => do
    match ← Act.attempt (download net url path sum) with
    | .ok () => return
    | .error _ => downloadAny net path sum next rest

def isVerified (d : Disk) (path sum : String) : Bool :=
  match checksum d path with
  | .ok actual => actual = sum
  | .error _ => false

/-- A cache, the servers that fill it, and whether work is still wanted. -/
structure Fetcher where
  cache : String
  net : Http.Transport
  live : Bool := true

namespace Fetcher

def fromUrls (f : Fetcher) (src : Source) (path : String) : Act String := do
  if !f.live then throw (.told "context canceled")
  downloadAny f.net path src.sha256 src.url src.mirrors
  return path

def archive (f : Fetcher) (name : String) (src : Source) : Act String := do
  if src.url = "" then throw (.told s!"{name} has no source url")
  if src.sha256 = "" then throw (.told s!"{name} has no sha256 for {src.url}")
  let path := cachePath f.cache src.sha256 src.url
  if ← Act.exists? path then
    if isVerified (← get) path src.sha256 then return path
    let _ ← Act.attempt (Act.remove path)
  Act.makeDirAll f.cache 0o755
  f.fromUrls src path

def movingArchive (f : Fetcher) (name : String) (src : Source) : Act String := do
  if src.sha256 ≠ "" then f.archive name src
  else
    if src.url = "" then throw (.told s!"{name} has no head url")
    let path := headPath f.cache name src.url
    Act.makeDirAll (Path.dir path) 0o755
    f.fromUrls src path

def clonePath (f : Fetcher) (name : String) : String := Path.join [f.cache, "git", name]

def clone (f : Fetcher) (name url : String) : Act Git.Repository := do
  let path := f.clonePath name
  let stopped : Act Unit := if f.live then return else throw (.told "context canceled")
  match ← Git.Repository.reopen path with
  | some r => (do stopped; Git.fetch f.net path r).during s!"fetching {url}"
  | none =>
    Act.makeDirAll (Path.dir path) 0o755
    match ← Act.attempt (do stopped; Git.clone f.net url path) with
    | .ok r => return r
    | .error e =>
      let _ ← Act.attempt (Act.removeAll path)
      throw (.during s!"cloning {url}" e)

/-- The commit that is asked for: a revision before a tag before a branch, and without any of them
what is checked out where the clone came from. -/
def pick (f : Fetcher) (r : Git.Repository) (ref : GitRef) : Act String :=
  let resolve (rev : String) : Act String :=
    MonadExcept.ofExcept (Taproom.during s!"resolving {rev}" (r.resolve rev))
  if ref.revision ≠ "" then resolve ref.revision
  else if ref.tag ≠ "" then resolve ("refs/tags/" ++ ref.tag)
  else if ref.branch ≠ "" then resolve ("refs/remotes/origin/" ++ ref.branch)
  else Git.remoteHead f.net r

def commit (f : Fetcher) (name : String) (ref : GitRef) : Act String := do
  let path := f.clonePath name
  let r ← f.clone name ref.url
  let hash ← f.pick r ref
  (Git.checkout r path (.commit hash) hash).during s!"checking out {hash}"
  return path

def fetch (f : Fetcher) (name : String) (src : Source) : Act String :=
  match src.git with
  | some ref => f.commit name ref
  | none => f.archive name src

def fetchHead (f : Fetcher) (name : String) (src : Source) : Act String :=
  match src.git with
  | some ref => f.commit name ref
  | none => f.movingArchive name src

def fetchAll (f : Fetcher) (sources : Dict String Source) : Act (Dict String String) :=
  sources.toList.foldlM (fun paths (name, src) => do
    let path ← (f.fetch name src).during s!"couldn't fetch {name}"
    return paths.insert name path) {}

end Fetcher

end Taproom.Fetch
