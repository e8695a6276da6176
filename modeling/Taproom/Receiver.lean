import Taproom.Bottle
import Taproom.Digest.Sha256
import Taproom.Http.Route
import Taproom.Index.Repository

/-!
A receiver takes bottles and puts them into the repositories below one directory. Taking a bottle
has three steps: it is written beside its place, moved there, and entered into the index.
-/

namespace Taproom

structure Receiver where
  root : String

namespace Receiver

def isRepoStart (c : Char) : Bool := Url.isLetter c || Text.isDigit c

def isRepoChar (c : Char) : Bool := isRepoStart c || c = '.' || c = '_' || c = '-'

def isRepoName (s : String) : Bool :=
  match s.toList with
  | [] => false
  | c :: rest => isRepoStart c && rest.all isRepoChar

structure Delivery where
  label : Bottle.Label
  repo : String
  file : String
  deriving DecidableEq, Repr

def accept (file repo : String) : Except Fault Delivery :=
  match Bottle.parseFileName? file with
  | none => .error (.notBottleName file)
  | some label =>
    if isRepoName repo then .ok ⟨label, repo, file⟩
    else .error (.told s!"invalid repo name {repo}")

def place (r : Receiver) (d : Delivery) : String := Path.join [r.root, d.label.tag, d.repo, d.file]

def entryOf (d : Delivery) (sum : String) : Index.Entry :=
  { name := d.label.name, version := d.label.version, sha256 := sum, file := d.file }

def write (r : Receiver) (d : Delivery) (content : ByteArray) : Act String := do
  let dir := Path.dir (r.place d)
  Act.makeDirAll dir 0o755
  let temporary ← Act.makeTempFile dir (d.file ++ ".") ".incomplete"
  Act.putFile temporary content 0o600
  return temporary

def commit (r : Receiver) (d : Delivery) (temporary : String) : Act Unit :=
  (Act.rename temporary (r.place d)).during "committing upload"

def register (r : Receiver) (d : Delivery) (sum : String) : Act Index.Entry := do
  let path := Path.join [Path.dir (r.place d), Index.fileName]
  let shelf ← Index.readFrom path
  let e := entryOf d sum
  Index.writeTo path (shelf.insert d.label.name e)
  return e

def receive (r : Receiver) (d : Delivery) (content : ByteArray) : Act Index.Entry := do
  let temporary ← r.write d content
  Act.andAlways
    (do
      r.commit d temporary
      r.register d (Sha256.hex content))
    (Act.remove temporary)

def entryJson (e : Index.Entry) : Json :=
  .obj [("Name", .str e.name), ("PkgVer", .str e.version), ("SHA256", .str e.sha256),
    ("Filename", .str e.file)]

/-- Answers an upload. A bottle that was taken is given together with its tag. -/
def upload (r : Receiver) (call : Http.Call) (d : Disk) :
    Http.Response × Option (String × Index.Entry) × Disk :=
  match accept (call.queryValue "fname") (call.queryValue "repo") with
  | .error f => (.fault 400 f, none, d)
  | .ok delivery =>
    match (r.receive delivery call.body).run d with
    | (.error f, d) => (.fault 500 f, none, d)
    | (.ok e, d) => (.json 200 (entryJson e), some (delivery.label.tag, e), d)

def routes (r : Receiver) (call : Http.Call) :
    List (Http.Route (Disk → Http.Response × Option (String × Index.Entry) × Disk)) :=
  [⟨"PUT", "/file", fun _ => r.upload call⟩]

def answer (r : Receiver) (call : Http.Call) (d : Disk) :
    Http.Response × Option (String × Index.Entry) × Disk :=
  match Http.choose (r.routes call) call with
  | .handler h => h d
  | .wrongMethod => (.wrongMethod, none, d)
  | .notFound => (.notFound, none, d)

end Receiver

end Taproom
