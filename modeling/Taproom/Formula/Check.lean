import Taproom.Formula.Basic
import Taproom.Regex.Reader
import Taproom.Text.Quoted

/-!
Everything that can be known to be wrong with a formula without fetching anything. All problems
are listed, not only the first.
-/

namespace Taproom.Formula

inductive Problem where
  | invalidName (name : String)
  | nameMismatch (name stem : String)
  | noDesc
  | noHomepage
  | gitWithoutUrl
  | gitUnpinned
  | noUrl
  | badChecksum (sum : String)
  | headWithoutSource
  | badHeadChecksum (sum : String)
  | dependsOnItself
  | unknownKind (dependency type : String)
  | repeatedDependency (dependency : String)
  | unnamedResource
  | repeatedResource (resource : String)
  | badResourceChecksum (resource sum : String)
  | badBottleChecksum (tag sum : String)
  | emptyInstallStep (index : Nat)
  | emptyTestStep (index : Nat)
  | badExpectation (index : Nat) (fault : Regex.Fault)
  | emptyService
  | deprecatedWithoutReason
  | disabledWithoutReason
  | noVersion (name : String)
  deriving DecidableEq, Repr

namespace Problem

def message : Problem → String
  | invalidName name => s!"invalid name {quoted name}"
  | nameMismatch name stem => s!"name {quoted name} does not match file name {quoted stem}"
  | noDesc => "desc is required"
  | noHomepage => "homepage is required"
  | gitWithoutUrl => "git source needs a url"
  | gitUnpinned => "stable git source must be pinned to a tag or revision"
  | noUrl => "url is required"
  | badChecksum sum => s!"sha256 {quoted sum} is not a sha256 checksum"
  | headWithoutSource => "head needs a url or git source"
  | badHeadChecksum sum => s!"head sha256 {quoted sum} is not a sha256 checksum"
  | dependsOnItself => "formula depends on itself"
  | unknownKind dependency type => s!"dependency {dependency} has unknown type {quoted type}"
  | repeatedDependency dependency => s!"duplicate dependency {dependency}"
  | unnamedResource => "resource without a name"
  | repeatedResource resource => s!"duplicate resource {resource}"
  | badResourceChecksum resource sum => s!"resource {resource} has invalid sha256 {quoted sum}"
  | badBottleChecksum tag sum => s!"bottle {tag} has invalid sha256 {quoted sum}"
  | emptyInstallStep index => s!"install step {index} has nothing to run"
  | emptyTestStep index => s!"test step {index} has nothing to run"
  | badExpectation index fault => s!"test step {index}: bad expect: {fault.message}"
  | emptyService => "service has nothing to run"
  | deprecatedWithoutReason => "deprecated needs a reason"
  | disabledWithoutReason => "disabled needs a reason"
  | noVersion name => s!"unable to determine version of {name}"

end Problem

/-- Sixty-four small hexadecimal digits. -/
def isChecksum (s : String) : Bool :=
  let cs := s.toList
  cs.length == 64 && cs.all fun c => Text.isDigit c || ('a' ≤ c && c ≤ 'f')

/-- Small letters and digits, then also `+`, `_`, `.`, `@` and `-`. -/
def isName (s : String) : Bool :=
  let plain (c : Char) : Bool := Text.isDigit c || ('a' ≤ c && c ≤ 'z')
  match s.toList with
  | [] => false
  | c :: rest => plain c && rest.all fun c => plain c || "+_.@-".toList.contains c

def problemIf (c : Bool) (p : Problem) : List Problem := if c then [p] else []

def sourceProblems (s : Source) : List Problem :=
  match s.git with
  | some ref =>
    problemIf (ref.url == "") .gitWithoutUrl ++
    problemIf (ref.revision == "" && ref.tag == "") .gitUnpinned
  | none =>
    if s.url = "" then [.noUrl] else problemIf (!isChecksum s.sha256) (.badChecksum s.sha256)

/-- A head source may go without a checksum, but not with a wrong one. -/
def headProblems (s : Source) : List Problem :=
  problemIf (s.url == "" && s.git.isNone) .headWithoutSource ++
  problemIf (s.sha256 != "" && !isChecksum s.sha256) (.badHeadChecksum s.sha256)

def dependencyProblems (self : String) (seen : List String) : List Dependency → List Problem
  | [] => []
  | d :: rest =>
    problemIf (d.name == self) .dependsOnItself ++
    problemIf (!Dependency.kinds.contains d.kind) (.unknownKind d.name d.type) ++
    problemIf (seen.contains d.name) (.repeatedDependency d.name) ++
    dependencyProblems self (d.name :: seen) rest

def resourceProblems (seen : List String) : List Resource → List Problem
  | [] => []
  | r :: rest =>
    if r.name = "" then .unnamedResource :: resourceProblems seen rest
    else
      problemIf (seen.contains r.name) (.repeatedResource r.name) ++
      problemIf (r.source.git.isNone && !isChecksum r.source.sha256)
        (.badResourceChecksum r.name r.source.sha256) ++
      resourceProblems (r.name :: seen) rest

def bottleProblems (b : BottleSpec) : List Problem :=
  b.files.toList.flatMap fun (tag, sum) => problemIf (!isChecksum sum) (.badBottleChecksum tag sum)

def testProblems (index : Nat) (t : TestStep) : List Problem :=
  problemIf t.run.isEmpty (.emptyTestStep index) ++
  if t.expect = "" then []
  else
    match Regex.parse t.expect with
    | .ok _ => []
    | .error fault => [.badExpectation index fault]

/-- All problems of a formula whose file has the given stem; an empty stem fits any name. -/
def problems (f : Formula) (stem : String) : List Problem :=
  problemIf (!isName f.name) (.invalidName f.name) ++
  problemIf (stem != "" && f.name != stem) (.nameMismatch f.name stem) ++
  problemIf (f.desc == "") .noDesc ++
  problemIf (f.homepage == "") .noHomepage ++
  sourceProblems f.source ++
  (f.head.map headProblems).getD [] ++
  dependencyProblems f.name [] (f.dependsOn ++ f.usesFromMacOS) ++
  resourceProblems [] f.resources ++
  (f.bottle.map bottleProblems).getD [] ++
  (f.install.zipIdx.flatMap fun (s, i) => problemIf s.run.isEmpty (.emptyInstallStep i)) ++
  (f.test.zipIdx.flatMap fun (t, i) => testProblems i t) ++
  problemIf ((f.service.map (·.run.isEmpty)).getD false) .emptyService ++
  problemIf ((f.deprecated.map (·.because == "")).getD false) .deprecatedWithoutReason ++
  problemIf ((f.disabled.map (·.because == "")).getD false) .disabledWithoutReason ++
  problemIf f.version?.isNone (.noVersion f.name)

end Taproom.Formula
