import Taproom.Archive.Bytes
import Taproom.Disk.Refusal
import Taproom.Git.Revision
import Taproom.Json
import Taproom.Plist
import Taproom.Url
import Taproom.Yaml.Fault

/-!
Everything that can stop an operation. A fault is a cause, wrapped in the contexts through which
it came; the wording of all of them is here.
-/

namespace Taproom

structure FailedStep where
  formula : String
  phase : String
  step : Nat
  exitCode : Int
  output : String
  deriving DecidableEq, Repr

inductive Fault where
  | disabled (formula because : String)
  | cycle (path : List String)
  | missingDependency (package dependency : String)
  | unknownPlatform (tag : String)
  | noBottle (formula platform : String)
  | checksumMismatch (url expected actual : String)
  | failedStep (s : FailedStep)
  | noCapacity
  | unknownProvider (name : String) (known : List String)
  | unknownStore (name : String) (known : List String)
  | noSuchFormula
  | noSuchPackage
  | yaml (f : Yaml.Fault)
  | disk (f : Disk.Refusal)
  | json (f : Json.Fault)
  | url (f : Url.Fault)
  | notNumber (text : String) (f : Text.NumberFault)
  | noVersion (formula : String)
  | noService (formula : String)
  | noRootUrl (formula : String)
  | notBottleName (file : String)
  | badPattern
  | archive (f : Archive.Fault)
  | revision (f : Git.Revision.Fault)
  | plist (f : Plist.Fault)
  | illegalPath (name : String)
  | unknownEntry (name : String) (flag : Nat)
  | malformedAlias (line : String)
  | told (text : String)
  | during (context : String) (cause : Fault)

namespace Fault

def numberProblem : Text.NumberFault → String
  | .malformed => "invalid syntax"
  | .outOfRange => "value out of range"

def message : Fault → String
  | disabled formula because => s!"{formula} has been disabled because it {because}"
  | cycle path => "dependency cycle: " ++ " -> ".intercalate path
  | missingDependency package dependency => s!"{package} depends on unknown package {dependency}"
  | unknownPlatform tag => s!"no graph for platform {tag}"
  | noBottle formula platform => s!"no bottle of {formula} for {platform}"
  | checksumMismatch place expected actual =>
    s!"checksum mismatch for {place}: expected {expected}, got {actual}"
  | failedStep s =>
    s!"{s.formula}: {s.phase} step {s.step} failed with exit code {s.exitCode}"
  | noCapacity => "insufficient capacity"
  | unknownProvider name [] => s!"no factory with name {name} exists, none are registered"
  | unknownProvider name known =>
    s!"no factory with name {name} exists, known providers: " ++ ", ".intercalate known
  | unknownStore name known => s!"no store named {name}, have [" ++ " ".intercalate known ++ "]"
  | noSuchFormula => "no such formula"
  | noSuchPackage => "no such package"
  | yaml f => f.message
  | disk f => f.message
  | json f => f.message
  | url f => f.message
  | notNumber text f => s!"strconv.Atoi: parsing {quoted text}: {numberProblem f}"
  | noVersion formula => s!"unable to determine version of {formula}"
  | noService formula => s!"{formula} has no service"
  | noRootUrl formula => s!"{formula} has no bottle root_url"
  | notBottleName file => s!"{quoted file} is not a bottle file name"
  | badPattern => "syntax error in pattern"
  | archive f => f.message
  | revision f => f.message
  | plist f => f.message
  | illegalPath name => s!"illegal path in archive: {name}"
  | unknownEntry name flag =>
    s!"unknown type of file {name} in archive: {String.ofList (Nat.toDigits 2 flag)}"
  | malformedAlias line => s!"malformed alias line {quoted line}"
  | told text => text
  | during context cause => context ++ ": " ++ message cause

def root : Fault → Fault
  | during _ cause => root cause
  | f => f

end Fault

def during {α : Type} (context : String) (r : Except Fault α) : Except Fault α :=
  r.mapError (Fault.during context)

end Taproom
