import Taproom.Bottle.Keg
import Taproom.Git.Tap
import Taproom.Graph.Basic
import Taproom.Keg.Cellar
import Taproom.Scheduler.Basic

/-!
Builds on this machine. They are all for one platform, and they all read one tap, which is at one
revision at a time: a build of another revision has to wait until the machine is idle.
-/

namespace Taproom

structure Local where
  slots : Int := 1
  ongoing : List Build := []
  deriving DecidableEq, Repr

namespace Local

structure Site where
  tapPath : String
  /-- The repository that the tap is a clone of. Empty if the tap is a plain directory. -/
  tapUrl : String := ""
  builder : Builder
  client : Manager.Client
  receiverUrl : String := ""
  outputDir : String
  repo : String

namespace Site

def tag (s : Site) : String := s.builder.platform.tag

def tap (s : Site) : Tap := ⟨s.tapPath⟩

def moveTo (s : Site) (rev : String) : Act Unit := do
  let t : Git.Tap := { path := s.tapPath, url := s.tapUrl }
  let t ← t.bootstrap s.client.net
  t.fetch s.client.net
  let _ ← t.moveTo rev

end Site

def admits (p : Platform) (l : Local) (b : Build) : Bool :=
  b.platform = p && (l.ongoing.length : Int) < l.slots && l.ongoing.all fun o => o.rev = b.rev

/-- Whether the tap has to move before a build starts. An idle machine is free to move it. -/
def mustMove (s : Site) (l : Local) (b : Build) : Bool :=
  l.ongoing.isEmpty && s.tapUrl ≠ "" && b.rev ≠ ""

/-- Takes a build if there is room for it and the tap is at its revision or can be moved there. -/
def dispatch (s : Site) (b : Build) (l : Local) : Act Local := do
  if !admits s.builder.platform l b then throw .noCapacity
  if mustMove s l b then s.moveTo b.rev
  return { l with ongoing := l.ongoing ++ [b] }

def finish (b : Build) (l : Local) : Local := { l with ongoing := l.ongoing.erase b }

def setSlots (tag : String) (slots : Dict String Int) (l : Local) : Local :=
  { l with slots := (slots.get? tag).getD l.slots }

def provider (s : Site) : Provider (Local × Disk) where
  dispatch b st :=
    match (dispatch s b st.1).run st.2 with
    | (.ok l, d) => (.ok (), l, d)
    | (.error f, d) => (.error f, st.1, d)
  running st := .ok st.1.ongoing

namespace Site

def needs (s : Site) (f : Formula) (d : Disk) : Except Fault (List (List String)) := do
  let g ← (Graph.fresh s.tap s.builder.platform).loadAliases d
  let fromSource (name : String) : Bool :=
    if name = f.name then true
    else
      match s.tap.load d name with
      | .ok needed => s.builder.willBuild needed {}
      | .error _ => true
  let levels ← (g.importAll d).installLevels [f.name] fromSource
  return (levels.map (·.filter (· ≠ f.name))).filter (!·.isEmpty)

def bottlePath (s : Site) (f : Formula) (tag : String) : Except Fault String :=
  match Bottle.fileName? f tag with
  | some file => .ok (Path.join [s.outputDir, tag, s.repo, file])
  | none => .error (.noVersion f.name)

def upload (s : Site) (path : String) : Act Unit := do
  let content ← Act.contentOf path
  let file := Path.base path
  let url := s.receiverUrl ++ "/file?fname=" ++ Url.encodeQuery file ++ "&repo=" ++ Url.encodeQuery s.repo
  let r ← MonadExcept.ofExcept (Http.send s.client.net "PUT" url content "")
  if r.status ≠ 200 then throw (.told s!"upload of {file}: {Http.statusLine r.status}")

def build (s : Site) (b : Build) : Brew Unit := do
  let d := (← getThe Workshop).disk
  let f ← MonadExcept.ofExcept (s.tap.load d b.package)
  let levels ← MonadExcept.ofExcept (s.needs f d)
  s.builder.installAll levels (s.tap.load d) {}
  let keg ← s.builder.install f { fromSource := true }
  let version ← MonadExcept.ofExcept (Builder.packageVersionOf f)
  let out ← MonadExcept.ofExcept (s.bottlePath f b.platform.tag)
  Act.makeDirAll (Path.dir out) 0o755
  let _ ← Bottle.pack keg f.name version out
  if s.receiverUrl ≠ "" then s.upload out

def run (s : Site) (b : Build) : Brew (Except Fault Unit) := do
  match ← Brew.attempt (s.build b) with
  | .ok () => return s.client.clean b.platform.tag
  | .error _ => return s.client.fail b.platform.tag b.package

end Site

def settle (s : Site) (l : Local) : Brew Local :=
  l.ongoing.foldlM (fun l b => do
    let _ ← s.run b
    return finish b l) l

end Local

end Taproom
