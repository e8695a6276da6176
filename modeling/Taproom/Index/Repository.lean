import Taproom.Archive.Tar
import Taproom.Archive.Zstd
import Taproom.Disk.Action
import Taproom.Http.Client
import Taproom.Index.Basic
import Taproom.Plist.Reader

/-!
The index file of a repository: a compressed archive with one property list of its bottles.
-/

namespace Taproom.Index

open Archive (Bytes)

def fileName : String := "index.tar.zst"

def memberName : String := "index.plist"

def Entry.fields (e : Entry) : List (String × String) :=
  [("filename", e.file), ("name", e.name), ("pkgver", e.version), ("sha256", e.sha256)]

def textField (members : List (String × Plist)) (field : String) : Except Plist.Fault String :=
  match members.reverse.lookup field with
  | none | some .nothing => .ok ""
  | some (.text s) => .ok s
  | some v => .error (.misfit v.kind "string")

def Entry.ofPlist : Plist → Except Plist.Fault Entry
  | .dict members => do
    return { name := ← textField members "name", version := ← textField members "pkgver",
             sha256 := ← textField members "sha256", file := ← textField members "filename" }
  | .nothing => .ok {}
  | v => .error (.misfit v.kind "repo.Entry")

def ofPlist : Plist → Except Plist.Fault Shelf
  | .dict members => members.foldlM (fun shelf (k, v) => return shelf.insert k (← Entry.ofPlist v)) {}
  | .nothing => .ok {}
  | v => .error (.misfit v.kind "map[string]*repo.Entry")

def ofItems : List Tar.Item → Except Fault Shelf
  | [] => .error (.told s!"index has no {memberName}")
  | .broken f :: _ => .error (.archive f)
  | .cut _ f :: _ => .error (.archive f)
  | .entry e :: rest =>
    if e.name ≠ memberName then ofItems rest
    else
      during "couldn't decode index"
        ((Plist.parse e.content >>= ofPlist).mapError .plist)

def decode (bs : Bytes) : Except Fault Shelf := ofItems (Tar.decode (Zstd.decode bs))

def encode (shelf : Shelf) : Bytes :=
  let text := Plist.render (.dict (shelf.toList.map fun (k, e) =>
    (k, .dict (e.fields.map fun (field, value) => (field, .text value)))))
  Zstd.encode (Tar.encode [{ name := memberName, kind := .file, mode := 0o644,
                             content := Archive.ofText text, link := "" }])

def readFrom (path : String) : Act Shelf := do
  let d ← get
  match d.find true path with
  | .error .missing => return {}
  | _ => MonadExcept.ofExcept (d.read path >>= fun b => decode b.data.toList)

def writeTo (path : String) (shelf : Shelf) : Act Unit := do
  let beside := path ++ ".tmp"
  Act.putFile beside ⟨(encode shelf).toArray⟩ 0o666
  Act.rename beside path

def fetch (net : Http.Transport) (d : Disk) (url : String) : Except Fault Shelf := do
  if startsWith url "http" then
    let r ← Http.get net url
    if r.status ≠ 200 then throw (.told s!"fetching {url}: {Http.statusLine r.status}")
    decode r.body.data.toList
  else if startsWith url "file://" then
    decode (← d.read (trimPrefix url "file://")).data.toList
  else throw (.told "unknown index scheme")

/-- Adds what a repository offers. Its address is kept even if it cannot be read. -/
def load (ix : Index) (net : Http.Transport) (d : Disk) (tag repo url : String) :
    Except Fault Unit × Index :=
  let ix := ix.remember tag repo url
  match fetch net d url with
  | .ok entries => (.ok (), ix.receive tag entries)
  | .error f => (.error f, ix)

/-- Reads all repositories of a platform again. If one cannot be read, nothing changes. -/
def reload (ix : Index) (net : Http.Transport) (d : Disk) (tag : String) :
    Except Fault Unit × Index :=
  let fresh := (ix.urls.getD tag {}).values.foldlM
    (fun shelf url => return offerAll shelf (← fetch net d url)) {}
  match fresh with
  | .ok shelf => (.ok (), ix.replace tag shelf)
  | .error f => (.error f, ix)

end Taproom.Index
