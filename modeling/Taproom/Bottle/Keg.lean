import Taproom.Bottle
import Taproom.Fetch
import Taproom.Unpack

/-!
Kegs packed into bottles and poured from them.
-/

namespace Taproom.Bottle

/-- What becomes of one thing in a keg. `parent` is where the keg lies in the bottle. -/
def entryOf (d : Disk) (parent : String) (names : List String) (e : Disk.Entry) : Tar.Entry :=
  let name := Path.join [parent, if names.isEmpty then "." else "/".intercalate names]
  match e with
  | .dir mode => { name := name ++ "/", kind := .dir, mode := mode % 512 }
  | .link target => { name, kind := .symlink, mode := 0o777, link := target }
  | .file _ =>
    match d.bodyOf? e with
    | some b => { name, kind := .file, mode := b.mode % 512, content := b.content.toList }
    | none => { name, kind := .file }

def entries (d : Disk) (keg parent : String) : Except Fault (List Tar.Entry) :=
  match d.find false keg with
  | .error reason => .error (.disk ⟨"lstat", keg, reason⟩)
  | .ok (place, e) =>
    .ok (entryOf d parent [] e :: (d.below place).map fun (names, e) => entryOf d parent names e)

def pack (keg name version out : String) : Act String := do
  Act.putFile out .empty 0o666
  match entries (← get) keg (Path.join [name, version]) with
  | .error f =>
    let _ ← Act.attempt (Act.remove out)
    throw (.during s!"packing {keg}" f)
  | .ok entries =>
    let bytes : ByteArray := ⟨(Gzip.encode (Tar.encode entries)).toArray⟩
    Act.putFile out bytes 0o666
    return Sha256.hex bytes

def pour (path sum cellar : String) : Act Unit := do
  let bytes ← Act.contentOf path
  let actual := Sha256.hex bytes
  if actual ≠ sum then throw (.checksumMismatch path sum actual)
  let content ← MonadExcept.ofExcept (Unpack.gunzip path bytes.toList)
  (Unpack.extract content cellar).during s!"pouring {path}"

end Taproom.Bottle
