import Taproom.Archive.Bzip2
import Taproom.Archive.Gzip
import Taproom.Archive.Kind
import Taproom.Archive.Tar
import Taproom.Archive.Zip
import Taproom.Disk.Action

/-!
Unpacking archives into directories. What an archive names is kept below the directory.
-/

namespace Taproom.Unpack

open Archive (Bytes Stream)

def within (root name : String) : Except Fault String :=
  let root := Path.clean root
  let p := Path.join [root, name]
  if p ≠ root && !startsWith p (root ++ "/") then .error (.illegalPath name) else .ok p

def place (target : String) (content : Bytes) (mode : Nat) : Act Unit := do
  Act.makeDirAll (Path.dir target) 0o755
  (Act.putFile target ⟨content.toArray⟩ (if mode = 0 then 0o644 else mode)).during
    s!"couldn't create file at {target}"

def placeEntry (root : String) (e : Tar.Entry) : Act Unit := do
  let target ← MonadExcept.ofExcept (within root e.name)
  match e.kind with
  | .dir => Act.makeDirAll target 0o755
  | .file => place target e.content (e.mode % 512)
  | .symlink =>
    Act.makeDirAll (Path.dir target) 0o755
    Act.symlink e.link target
  | .hardLink =>
    let source ← MonadExcept.ofExcept (within root e.link)
    Act.hardLink source target
  | .note => return
  | .other flag => throw (.unknownEntry e.name flag.toNat)

def placeItem (root : String) : Tar.Item → Act Unit
  | .entry e => placeEntry root e
  | .cut e f => do
    placeEntry root e
    throw (.archive f)
  | .broken f => throw (.archive f)

def placeItems (root : String) (items : List Tar.Item) : Act Unit := items.forM (placeItem root)

def extract (s : Stream) (dest : String) : Act Unit := do
  Act.makeDirAll dest 0o755
  placeItems dest (Tar.decode s)

def placeZipped (root : String) (e : Zip.Entry) : Act Unit := do
  let target ← MonadExcept.ofExcept (within root e.name)
  if e.isDir then Act.makeDirAll target 0o755 else place target e.content e.permissions

def plainName (path : String) : String :=
  let name := Path.base path
  match Text.cut? ['-', '-'] name.toList with
  | some (_, rest) => String.ofList rest
  | none => name

def gunzip (path : String) (bytes : Bytes) : Except Fault Stream :=
  during s!"couldn't create a gzip decompressor for {path}" ((Gzip.decode bytes).mapError .archive)

def placeBytes (path : String) (bytes : Bytes) (root : String) : Act Unit := do
  match Archive.kindOf bytes with
  | .zstd => placeItems root (Tar.decode (Zstd.decode bytes))
  | .bzip2 => placeItems root (Tar.decode (Bzip2.decode bytes))
  | .tar => placeItems root (Tar.decode ⟨bytes, none⟩)
  | .zip =>
    match Zip.decode bytes with
    | .ok entries => entries.forM (placeZipped root)
    | .error f => throw (.archive f)
  | .gzip | .plain => place (Path.join [root, plainName path]) bytes 0o644

/-- Moves what was unpacked to its place. A directory that holds everything is dropped. -/
def promote (staging dest : String) : Act Unit := do
  let entries ← Act.listDir staging
  let (source, entries) ← match entries with
    | [(name, .dir _)] =>
      let inner := Path.join [staging, name]
      pure (inner, ← Act.listDir inner)
    | entries => pure (staging, entries)
  entries.forM fun (name, _) =>
    Act.rename (Path.join [source, name]) (Path.join [dest, name])

/-- Unpacks a file into a directory by way of a fresh directory inside it. -/
def unpack (path dest : String) : Act Unit := do
  let bytes ← (Act.contentOf path).during s!"couldn't determine file type of {path}"
  Act.makeDirAll dest 0o755
  let staging ← Act.makeTempDir dest ".unpack-"
  Act.andAlways
    (do
      let bytes := bytes.toList
      let placing ←
        if Archive.kindOf bytes = .gzip then
          pure (placeItems staging (Tar.decode (← MonadExcept.ofExcept (gunzip path bytes))))
        else pure (placeBytes path bytes staging)
      placing.during s!"couldn't unpack {path}"
      promote staging dest)
    (Act.removeAll staging)

end Taproom.Unpack
