import Taproom.Cli.Run
import Taproom.Disk.Change
import Taproom.Shell.Run

/-!
The command line on a real machine. The working directory is read before a command runs, and what
the command changed below it is written back.
-/

namespace Taproom.Main

def watched : List String :=
  ["NBREW_BITCASK_PATH", "NBREW_BIND", "NBREW_BUILD_SLOTS", "NBREW_CACHE",
   "NBREW_CAPACITY_PROVIDER", "NBREW_CELLAR", "NBREW_CONFIG", "NBREW_GRAPH_URL", "NBREW_JOBS",
   "NBREW_PLATFORMS", "NBREW_RECEIVER_PATH", "NBREW_SQLITE_PATH", "NBREW_STORAGE_PROVIDER",
   "NBREW_TAP_PATH", "NBREW_TAP_URL"]

def environment : IO (Dict String String) :=
  watched.foldlM (fun env name => do
    match ← IO.getEnv name with
    | some value => return env.insert name value
    | none => return env) {}

partial def readBelow (e : IO.FS.DirEntry) (d : Disk) : IO Disk := do
  let path := e.path.toString
  if ← e.path.isDir then
    let d := ((Act.makeDirAll path 0o755).run d).2
    (← e.path.readDir).foldlM (fun d e => readBelow e d) d
  else
    let content ← IO.FS.readBinFile e.path
    return ((Act.putFile path content 0o644).run d).2

def now : IO String := do
  let (_, path) ← IO.FS.createTempFile
  let time := (← path.metadata).modified
  IO.FS.removeFile path
  return Text.timeText time.sec

def apply : Disk.Change → IO Unit
  | .makeDir path => IO.FS.createDirAll path
  | .writeFile path content => IO.FS.writeBinFile path content
  | .remove path => do
    try IO.FS.removeFile path
    catch _ => IO.FS.removeDirAll path

def main (args : List String) : IO UInt32 := do
  let cwd ← IO.currentDir
  let start : Disk := { cwd := Path.components cwd.toString }
  let temp := "/tmp"
  let d := ((Act.makeDirAll temp 0o755).run (← readBelow ⟨cwd, "."⟩ start)).2
  let env ← environment
  let machine : Cli.Machine :=
    { env, platform := ⟨"x86_64", "linux"⟩, net := Http.unreachable
      runner := Shell.runner env, temp, now := ← now }
  let (r, c) := (Cli.run machine args).run { workshop := { disk := d } }
  IO.eprint c.workshop.transcript
  IO.print c.output
  let isOurs : Disk.Change → Bool
    | .makeDir p | .writeFile p _ | .remove p => startsWith p (cwd.toString ++ "/")
  ((Disk.changes d c.workshop.disk).filter isOurs).forM apply
  match r with
  | .ok () => return 0
  | .error f =>
    IO.eprintln s!"Error: {f.message}"
    return 1

end Taproom.Main

def main (args : List String) : IO UInt32 := Taproom.Main.main args
