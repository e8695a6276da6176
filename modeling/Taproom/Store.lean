import Taproom.Dict
import Taproom.Disk.Action
import Taproom.Fault

/-!
Stores, which keep texts under keys between runs.
-/

namespace Taproom

structure Store where
  entries : Dict String String := {}
  getFault : Option Fault := none
  putFault : Option Fault := none
  /-- An empty text is not told from no text at all. -/
  losesEmpty : Bool := false
  keyLimit : Option Nat := none

namespace Store

def get (s : Store) (key : String) : Except Fault (Option String) :=
  match s.getFault with
  | some f => .error f
  | none =>
    match s.entries.get? key with
    | some "" => .ok (if s.losesEmpty then none else some "")
    | v => .ok v

def keyFault? (s : Store) (key : String) : Option Fault :=
  s.keyLimit.bind fun limit =>
    if key.isEmpty then some (.told "error: empty key")
    else if key.utf8ByteSize > limit then some (.told "error: key too large")
    else none

def put (s : Store) (key value : String) : Except Fault Store :=
  match s.putFault.or (s.keyFault? key) with
  | some f => .error f
  | none => .ok { s with entries := s.entries.insert key value }

def delete (s : Store) (key : String) : Store := { s with entries := s.entries.erase key }

def kinds : List String := ["bitcask", "sqlite"]

def pathVariable (kind : String) : String :=
  if kind = "sqlite" then "NBREW_SQLITE_PATH" else "NBREW_BITCASK_PATH"

def pathOf (env : Dict String String) (kind : String) : Except Fault String :=
  if !kinds.contains kind then .error (.unknownStore kind kinds)
  else
    match env.getD (pathVariable kind) "" with
    | "" => .error (.told "required variable unset")
    | path => .ok path

def fresh (kind : String) : Store :=
  if kind = "sqlite" then { losesEmpty := true } else { keyLimit := some 1024 }

/-- Makes the place of a store, which is one file or a directory of its own. A file that is there
has to be empty. -/
def prepare (kind path : String) : Act Unit := do
  if kind = "sqlite" then
    let refuse (reason : String) : Act Unit :=
      throw (.during "couldn't enable WAL mode" (.told reason))
    let d ← getThe Disk
    if !d.isDirectory (Path.dir path) || d.isDirectory path then
      refuse "unable to open database file: out of memory (14)"
    if (d.read path).toOption.any (!·.isEmpty) then refuse "file is not a database (26)"
  else Act.makeDirAll path 0o700

def openNew (env : Dict String String) (kind : String) : Act Store := do
  let path ← MonadExcept.ofExcept (pathOf env kind)
  prepare kind path
  return fresh kind

end Store

end Taproom
