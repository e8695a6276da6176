import Taproom.Bottle.Keg
import Taproom.Keg.Receipt
import Taproom.Keg.Variables
import Taproom.Program
import Taproom.Service

/-!
Making kegs: formulae are built from their sources or poured from bottles. A keg gets its receipt
last, and what is left of a failed attempt is removed.
-/

namespace Taproom

/-- A disk on which kegs are made, and everything that programs wrote meanwhile. -/
structure Workshop where
  disk : Disk
  transcript : String := ""

abbrev Brew (α : Type) := ExceptT Fault (StateM Workshop) α

namespace Brew

variable {α : Type}

def run (b : Brew α) (w : Workshop) : Except Fault α × Workshop := (ExceptT.run b).run w

def ofAct (a : Act α) : Brew α := ExceptT.mk do
  let w ← getThe Workshop
  let (r, d) := a.run w.disk
  set { w with disk := d }
  return r

instance : MonadLift (ExceptT Fault (StateM Disk)) (ExceptT Fault (StateM Workshop)) := ⟨ofAct⟩

def attempt (b : Brew α) : Brew (Except Fault α) := ExceptT.lift (ExceptT.run b)

def during (context : String) (b : Brew α) : Brew α := ExceptT.adapt (Fault.during context) b

/-- Work that is followed by a cleanup whether it failed or not. -/
def andAlways (b : Brew α) (cleanup : Act Unit) : Brew α := do
  let r ← attempt b
  let _ ← attempt (ofAct cleanup)
  MonadExcept.ofExcept r

def runProgram (runner : Program.Runner) (p : Program) : Brew Program.Outcome := ExceptT.lift do
  let w ← getThe Workshop
  let (o, d) := runner p w.disk
  set { disk := d, transcript := w.transcript ++ o.output : Workshop }
  return o

end Brew

structure Builder where
  cellar : String
  fetcher : Fetch.Fetcher
  platform : Platform
  runner : Program.Runner
  temp : String
  now : String

namespace Builder

structure Options where
  fromSource : Bool := false
  head : Bool := false
  keepTemp : Bool := false
  deriving DecidableEq, Repr

def rack (b : Builder) (name : String) : String := Path.join [b.cellar, name]

def packageVersionOf (f : Formula) : Except Fault String :=
  match f.packageVersion? with
  | some v => .ok v
  | none => .error (.noVersion f.name)

def kegPath (b : Builder) (f : Formula) (head : Bool) : Except Fault String :=
  if head then .ok (Path.join [b.cellar, f.name, "HEAD"])
  else (packageVersionOf f).map fun v => Path.join [b.cellar, f.name, v]

def willBuild (b : Builder) (f : Formula) (o : Options) : Bool :=
  o.fromSource || o.head || !(Bottle.source f b.platform).isOk

/-- A builder whose work is not wanted any more: nothing new is fetched and no program starts. -/
def cancelled (b : Builder) : Builder :=
  { b with
    fetcher := { b.fetcher with live := false }
    runner := fun _ d => (.unstarted "context canceled", d) }

def programOf (s : Step) (dir : String) (v : Variables) : Program where
  args := s.run.map v.expand
  dir := if s.dir = "" then dir else Path.join [dir, v.expand s.dir]
  env := ("PREFIX", v.getD "prefix" "") :: s.env.toList.map fun (k, x) => (k, v.expand x)

def runStep (b : Builder) (name phase : String) (i : Nat) (s : Step) (dir : String) (v : Variables) :
    Brew Unit := do
  let o ← Brew.runProgram b.runner (programOf s dir v)
  if !o.isSuccess then throw (.failedStep ⟨name, phase, i, o.code, o.report⟩)

/-- Runs the steps that are for this platform, in order; `i` is the number of the first one. -/
def runSteps (b : Builder) (name phase dir : String) (v : Variables) (i : Nat) : List Step → Brew Unit
  | [] => return
  | s :: rest => do
    if b.platform.among s.on then b.runStep name phase i s dir v
    runSteps b name phase dir v (i + 1) rest

def copyCheckout (source target : String) : Act Unit := do
  let d ← get
  match d.find true source with
  | .error reason => throw (.disk ⟨"lstat", source, reason⟩)
  | .ok (place, _) =>
    Act.makeDirAll target 0o755
    let isHistory (rel : List String) : Bool :=
      (List.range rel.length).any fun i =>
        rel[i]? = some ".git" && d.isDir (place ++ rel.take (i + 1))
    for (rel, e) in d.below place do
      if !isHistory rel then
        let p := Path.join [target, "/".intercalate rel]
        match e with
        | .dir _ => Act.makeDirAll p 0o755
        | .link t => Act.symlink t p
        | .file _ =>
          let body := d.bodyOf? e
          Act.putFile p ((body.map (·.content)).getD .empty) ((body.map (·.mode)).getD 0o644)

def stage (b : Builder) (name : String) (src : Source) (head : Bool) (target : String) : Act Unit := do
  let path ← if head then b.fetcher.fetchHead name src else b.fetcher.fetch name src
  if src.git.isSome then copyCheckout path target else Unpack.unpack path target

def stageResources (b : Builder) (f : Formula) (dir : String) : List Resource → Variables → Act Variables
  | [], v => return v
  | r :: rest, v => do
    let target := Path.join [dir, ".resources", r.name]
    (b.stage (f.name ++ "--" ++ r.name) r.source false target).during s!"staging resource {r.name}"
    stageResources b f dir rest (v.insert ("resource." ++ r.name) target)

/-- What kegs need after they were filled: their last steps and the description of a service. -/
def finish (b : Builder) (f : Formula) (keg version : String) : Brew Unit := do
  b.runSteps f.name "post_install" keg (Variables.ofKeg f.name version keg) 0 f.postInstall
  match Service.render? f keg b.platform with
  | some text => Act.putFile (Path.join [keg, Service.fileName f b.platform]) text.toUTF8 0o644
  | none => return

def writeReceipt (b : Builder) (f : Formula) (keg : String) (r : Receipt) : Act Unit :=
  let names := (f.dependencies b.platform ["run", "recommended"]).map (·.name)
  let r := { r with
    name := f.name, version := Path.base keg, platform := b.platform.tag
    runtimeDepends := names, installedAt := b.now }
  Act.putFile (Receipt.pathIn keg) r.render.toUTF8 0o644

def versionOf (f : Formula) : Except Fault String :=
  match f.version? with
  | some v => .ok v
  | none => .error (.noVersion f.name)

def pour (b : Builder) (f : Formula) (src : Source) (keg : String) : Brew Unit := do
  let archive ← b.fetcher.fetch (f.name ++ "-bottle") src
  let undo (e : Fault) : Brew Unit := do
    let _ ← Brew.attempt (Act.removeAll keg)
    throw e
  match ← Brew.attempt (Bottle.pour archive src.sha256 b.cellar) with
  | .error e => undo e
  | .ok () =>
    if !(← (Act.exists? keg : Act Bool)) then
      throw (.told s!"bottle of {f.name} did not contain {keg}")
    let version ← MonadExcept.ofExcept (versionOf f)
    match ← Brew.attempt (b.finish f keg version) with
    | .error e => undo e
    | .ok () => b.writeReceipt f keg { isPoured := true, source := src.url }

def originOf (src : Source) : String :=
  match src.git with
  | some ref => ref.url
  | none => src.url

def toBuild (f : Formula) (head : Bool) : Except Fault (Source × String) := do
  let version ← versionOf f
  if !head then return (f.source, version)
  match f.head with
  | some src => return (src, "HEAD")
  | none => throw (.told s!"{f.name} has no head source")

/-- Fills a keg by the steps of its formula in a directory that was made for them. -/
def buildIn (b : Builder) (f : Formula) (keg : String) (o : Options) (src : Source) (version dir : String) :
    Brew Unit := do
  b.stage f.name src o.head dir
  let v := ((Variables.ofKeg f.name version keg).insert "buildpath" dir).insert "cellar" b.cellar
  let v ← b.stageResources f dir f.resources v
  Act.makeDirAll keg 0o755
  b.runSteps f.name "install" dir v 0 f.install
  b.finish f keg version
  b.writeReceipt f keg { isHead := o.head, source := originOf src }

def build (b : Builder) (f : Formula) (keg : String) (o : Options) : Brew Unit := do
  let (src, version) ← MonadExcept.ofExcept (toBuild f o.head)
  let dir ← Act.makeTempDir b.temp ("nbrew-" ++ f.name ++ "-")
  let work := b.buildIn f keg o src version dir
  if o.keepTemp then work else work.andAlways (Act.removeAll dir)

def removeEmptyRack (b : Builder) (name : String) : Act Unit := do
  match ← Act.attempt (Act.listDir (b.rack name)) with
  | .ok [] =>
    let _ ← Act.attempt (Act.remove (b.rack name))
  | _ => return

def install (b : Builder) (f : Formula) (o : Options) : Brew String := do
  match f.disabled with
  | some l => throw (.disabled f.name l.because)
  | none => pure ()
  let keg ← MonadExcept.ofExcept (b.kegPath f o.head)
  if ← (Act.exists? (Receipt.pathIn keg) : Act Bool) then return keg
  let _ ← Brew.attempt (Act.removeAll keg)
  if b.willBuild f o then
    match ← Brew.attempt (b.build f keg o) with
    | .ok () => return keg
    | .error e =>
      let _ ← Brew.attempt (Act.removeAll keg)
      b.removeEmptyRack f.name
      throw e
  else
    let src ← MonadExcept.ofExcept (Bottle.source f b.platform)
    b.pour f src keg
    return keg

end Builder

end Taproom
