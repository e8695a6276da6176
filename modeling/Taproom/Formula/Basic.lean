import Taproom.Dict
import Taproom.Platform
import Taproom.Version

/-!
Formulae: what a package is, where its source comes from, what it depends on, and how it is
built, tested and run.
-/

namespace Taproom

structure GitRef where
  url : String := ""
  tag : String := ""
  revision : String := ""
  branch : String := ""
  deriving DecidableEq, Repr, Inhabited

structure Source where
  url : String := ""
  mirrors : List String := []
  sha256 : String := ""
  git : Option GitRef := none
  deriving DecidableEq, Repr, Inhabited

structure Dependency where
  name : String := ""
  type : String := ""
  on : List String := []
  arch : String := ""
  deriving DecidableEq, Repr, Inhabited

structure Resource where
  name : String := ""
  source : Source := {}
  deriving DecidableEq, Repr, Inhabited

structure BottleSpec where
  rootUrl : String := ""
  cellar : String := ""
  rebuild : Int := 0
  files : Dict String String := {}

structure Step where
  run : List String := []
  dir : String := ""
  env : Dict String String := {}
  on : List String := []

structure TestStep where
  run : List String := []
  input : String := ""
  expect : String := ""
  exitCode : Int := 0
  deriving DecidableEq, Repr, Inhabited

structure ServiceSpec where
  run : List String := []
  keepAlive : Bool := false
  runAtLoad : Bool := false
  workingDir : String := ""
  logPath : String := ""
  errorLogPath : String := ""
  environment : Dict String String := {}

structure Lifecycle where
  date : String := ""
  because : String := ""
  deriving DecidableEq, Repr, Inhabited

structure Formula where
  name : String := ""
  desc : String := ""
  homepage : String := ""
  license : String := ""
  version : String := ""
  revision : Int := 0
  source : Source := {}
  head : Option Source := none
  kegOnly : String := ""
  conflictsWith : List String := []
  dependsOn : List Dependency := []
  usesFromMacOS : List Dependency := []
  resources : List Resource := []
  bottle : Option BottleSpec := none
  install : List Step := []
  postInstall : List Step := []
  test : List TestStep := []
  service : Option ServiceSpec := none
  caveats : String := ""
  deprecated : Option Lifecycle := none
  disabled : Option Lifecycle := none

instance : Inhabited Formula := ⟨{}⟩

def Dependency.kinds : List String := ["build", "run", "test", "optional", "recommended"]

def Dependency.kind (d : Dependency) : String := if d.type = "" then "run" else d.type

namespace Formula

/-- The version: an explicit one, else the one in the address, else the tag. -/
def version? (f : Formula) : Option String :=
  if f.version ≠ "" then some f.version
  else if Version.ofUrl f.source.url ≠ "" then some (Version.ofUrl f.source.url)
  else
    match f.source.git with
    | some ref => if ref.tag ≠ "" then some (trimPrefix ref.tag "v") else none
    | none => none

def packageVersion? (f : Formula) : Option String :=
  f.version?.map fun v => Version.withRevision v f.revision

/-- Whether `d` applies on `p` and is of a wanted kind; no kinds means all of them. -/
def wants (p : Platform) (kinds : List String) (d : Dependency) : Bool :=
  (kinds.isEmpty || kinds.contains d.kind) && p.among d.on && (d.arch == "" || d.arch == p.arch)

/-- The dependencies of the given kinds on a platform. What macOS ships is left out there. -/
def dependencies (f : Formula) (p : Platform) (kinds : List String) : List Dependency :=
  (f.dependsOn ++ if p.isMacOS then [] else f.usesFromMacOS).filter (wants p kinds)

def deprecation? (f : Formula) : Option String :=
  f.deprecated.map fun l => f.name ++ " has been deprecated because it " ++ l.because

end Formula

end Taproom
