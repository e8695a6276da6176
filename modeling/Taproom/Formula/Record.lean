import Taproom.Formula.Basic
import Taproom.Json

/-!
Formulae as JSON, every field under its key, whether it is set or not.
-/

namespace Taproom

namespace Json

def ofTexts (d : Dict String String) : Json := .obj (d.toList.map fun (k, v) => (k, .str v))

def ofOption {α : Type} (f : α → Json) : Option α → Json
  | some v => f v
  | none => .null

end Json

def GitRef.toJson (g : GitRef) : Json :=
  .obj [("url", .str g.url), ("tag", .str g.tag), ("revision", .str g.revision),
    ("branch", .str g.branch)]

def Source.members (s : Source) : List (String × Json) :=
  [("url", .str s.url), ("mirrors", Json.ofNames s.mirrors), ("sha256", .str s.sha256),
   ("git", Json.ofOption GitRef.toJson s.git)]

def Dependency.toJson (d : Dependency) : Json :=
  .obj [("name", .str d.name), ("type", .str d.type), ("on", Json.ofNames d.on),
    ("arch", .str d.arch)]

def Step.toJson (s : Step) : Json :=
  .obj [("run", Json.ofNames s.run), ("dir", .str s.dir), ("env", Json.ofTexts s.env),
    ("on", Json.ofNames s.on)]

def TestStep.toJson (t : TestStep) : Json :=
  .obj [("run", Json.ofNames t.run), ("input", .str t.input), ("expect", .str t.expect),
    ("exit_code", Json.ofInt t.exitCode)]

def ServiceSpec.toJson (s : ServiceSpec) : Json :=
  .obj [("run", Json.ofNames s.run), ("keep_alive", .bool s.keepAlive),
    ("run_at_load", .bool s.runAtLoad), ("working_dir", .str s.workingDir),
    ("log_path", .str s.logPath), ("error_log_path", .str s.errorLogPath),
    ("environment", Json.ofTexts s.environment)]

def Lifecycle.toJson (l : Lifecycle) : Json :=
  .obj [("date", .str l.date), ("because", .str l.because)]

def BottleSpec.toJson (b : BottleSpec) : Json :=
  .obj [("root_url", .str b.rootUrl), ("cellar", .str b.cellar), ("rebuild", Json.ofInt b.rebuild),
    ("files", Json.ofTexts b.files)]

def Formula.toJson (f : Formula) : Json :=
  .obj ([("name", .str f.name), ("desc", .str f.desc), ("homepage", .str f.homepage),
    ("license", .str f.license), ("version", .str f.version),
    ("revision", Json.ofInt f.revision)] ++ f.source.members ++
    [("head", Json.ofOption (fun s => .obj s.members) f.head), ("keg_only", .str f.kegOnly),
     ("conflicts_with", Json.ofNames f.conflictsWith),
     ("depends_on", .arr (f.dependsOn.map Dependency.toJson)),
     ("uses_from_macos", .arr (f.usesFromMacOS.map Dependency.toJson)),
     ("resources", .arr (f.resources.map fun r => .obj (("name", .str r.name) :: r.source.members))),
     ("bottle", Json.ofOption BottleSpec.toJson f.bottle),
     ("install", .arr (f.install.map Step.toJson)),
     ("post_install", .arr (f.postInstall.map Step.toJson)),
     ("test", .arr (f.test.map TestStep.toJson)),
     ("service", Json.ofOption ServiceSpec.toJson f.service), ("caveats", .str f.caveats),
     ("deprecated", Json.ofOption Lifecycle.toJson f.deprecated),
     ("disabled", Json.ofOption Lifecycle.toJson f.disabled)])

end Taproom
