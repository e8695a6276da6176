import Taproom.Archive.Tar
import Taproom.Config
import Taproom.Formula.Record
import Taproom.Http.Client
import Taproom.Index.Basic
import Taproom.Keg.Receipt
import Taproom.Manager.Basic
import Taproom.Scheduler.Build

/-!
How values are shown to a reader: as JSON with short names, and with nothing left out.
-/

namespace Taproom.View

def dict {α : Type} (f : α → Json) (d : Dict String α) : Json :=
  .obj (d.toList.map fun (k, v) => (k, f v))

def names (n : Names) : Json := Json.ofNames n.toList

def platform (p : Platform) : Json :=
  .obj [("arch", .str p.arch), ("os", .str p.system), ("tag", .str p.tag), ("string", .str p.tag),
    ("is_macos", .bool p.isMacOS)]

def build (b : Build) : Json :=
  .obj [("arch", .str b.platform.arch), ("os", .str b.platform.system), ("pkg", .str b.package),
    ("rev", .str b.rev)]

def builds (l : List Build) : Json := .arr (l.map build)

def entry (e : Index.Entry) : Json :=
  .obj [("name", .str e.name), ("pkgver", .str e.version), ("sha256", .str e.sha256),
    ("filename", .str e.file)]

def package (p : Package) : Json :=
  .obj [("name", .str p.name), ("version", .str p.version), ("dirty", .bool p.dirty),
    ("failed", .bool p.failed), ("disabled", .bool p.disabled), ("build", names p.build),
    ("run", names p.run), ("test", names p.test)]

def bad (mask : String → String) (d : Dict String String) : Json := dict (fun v => .str (mask v)) d

def atom (mask : String → String) (a : Atom) : Json :=
  .obj [("platform", .str a.platform.tag), ("rev", .str a.rev), ("pkgs", dict package a.packages),
    ("aliases", Json.ofTexts a.aliases), ("bad", bad mask a.bad)]

def graph (mask : String → String) (g : Graph) : Json :=
  .obj [("names", Json.ofNames g.names), ("bad", bad mask g.atom.bad)]

def manager (mask : String → String) (m : Manager) : Json :=
  .obj [("rev", .str m.rev), ("graphs", dict (fun g =>
    .obj [("names", Json.ofNames g.names), ("bad", bad mask g.atom.bad), ("rev", .str g.atom.rev)]) m.graphs)]

/-- Shows the text of a kept graph as what it means. Aliases that it lacks are shown as missing. -/
def kept (mask : String → String) (text : String) : Json :=
  let hasAliases := match Json.parse text with
    | .ok (.obj members) =>
      match members.reverse.find? fun (k, _) => Json.fieldName k = "aliases" with
      | some (_, .null) | none => false
      | _ => true
    | _ => false
  match (Atom.decode? { platform := ⟨"", ""⟩ } text).map (atom mask) with
  | some (.obj shown) =>
    .obj (shown.map fun (k, v) => (k, if k = "aliases" && !hasAliases then .null else v))
  | _ => .str text

def config (c : Config) : Json :=
  .obj [("config", c.toJson), ("platform_list", .arr (c.platformList.map platform))]

/-- Shows an item of an archive that was packed here, where nobody owns anything. -/
def packed : Tar.Item → Json
  | .entry e =>
    .obj [("name", .str e.name), ("type", .str (String.singleton (Char.ofNat e.kind.flag.toNat))),
      ("mode", Json.ofInt e.mode), ("content", .str (Archive.toText e.content)),
      ("link", .str e.link), ("owner", .arr [Json.ofInt 0, Json.ofInt 0, .str "", .str ""])]
  | _ => .null

def receipt (r : Receipt) : Json :=
  .obj [("name", .str r.name), ("pkgver", .str r.version), ("platform", .str r.platform),
    ("poured", .bool r.isPoured), ("head", .bool r.isHead), ("source", .str r.source),
    ("runtime_depends", Json.ofNames r.runtimeDepends), ("has_time", .bool r.hasTime)]

def response (r : Http.Response) : Json :=
  let text := (String.fromUTF8? r.body).getD ""
  let body : Json :=
    if r.contentType = "application/json" then (Json.parse text).toOption.getD (.str text) else .str text
  .obj [("status", Json.ofInt r.status), ("content_type", .str r.contentType), ("body", body)]

end Taproom.View
