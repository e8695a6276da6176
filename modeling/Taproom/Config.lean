import Taproom.Disk.Action
import Taproom.Formula.Record
import Taproom.Platform
import Taproom.Yaml.Shape

/-!
The settings of the program: defaults, then a file, then the environment.
-/

namespace Taproom

structure Config where
  platforms : List String := ["x86_64_linux"]
  indexUrls : Dict String (Dict String String) :=
    .ofList [("x86_64_linux",
      .ofList [("core", "file://bottles/x86_64_linux/core/index.tar.zst")])]
  tapUrl : String := ""
  tapPath : String := "tap"
  cellar : String := "Cellar"
  cache : String := "cache"
  jobs : Int := 4
  storageProvider : String := "bitcask"
  capacityProvider : String := "local"
  buildSlots : Dict String Int := .ofList [("x86_64_linux", 1)]
  graphUrl : String := "http://localhost:8080/api/graph"
  bind : String := ":8080"
  receiverPath : String := "bottles"
  /-- In nanoseconds. -/
  idleTimeout : Int := 120000000000

namespace Config

open Yaml (Shape)
open Yaml.Shape (field list dict)

def shape : Shape Config :=
  Yaml.Shape.record "config.Config"
    [field "platforms" (list .text "") (·.platforms) fun c v => { c with platforms := v },
     field "index_urls" (dict (dict .text "") {}) (·.indexUrls)
       fun c v => { c with indexUrls := v },
     field "tap_url" .text (·.tapUrl) fun c v => { c with tapUrl := v },
     field "tap_path" .text (·.tapPath) fun c v => { c with tapPath := v },
     field "cellar" .text (·.cellar) fun c v => { c with cellar := v },
     field "cache" .text (·.cache) fun c v => { c with cache := v },
     field "jobs" .int (·.jobs) fun c v => { c with jobs := v },
     field "storage_provider" .text (·.storageProvider)
       fun c v => { c with storageProvider := v },
     field "capacity_provider" .text (·.capacityProvider)
       fun c v => { c with capacityProvider := v },
     field "build_slots" (dict .int 0) (·.buildSlots) fun c v => { c with buildSlots := v },
     field "graph_url" .text (·.graphUrl) fun c v => { c with graphUrl := v },
     field "bind" .text (·.bind) fun c v => { c with bind := v },
     field "receiver_path" .text (·.receiverPath) fun c v => { c with receiverPath := v },
     field "idle_timeout" .duration (·.idleTimeout) fun c v => { c with idleTimeout := v }]

/-- Settings of the text replace those of `c`; tables gain entries. -/
def readOver (c : Config) (text : String) : Except Fault Config :=
  (Yaml.readInto shape c text).mapError .yaml

def tagList (s : String) : List String :=
  ((splitAt s ',').map trimBlank).filter (· ≠ "")

/-- Settings of the environment win. -/
def applyEnv (c : Config) (env : Dict String String) : Except Fault Config := do
  let get (name current : String) : String := env.getD ("NBREW_" ++ name) current
  let c := { c with
    tapUrl := get "TAP_URL" c.tapUrl
    tapPath := get "TAP_PATH" c.tapPath
    cellar := get "CELLAR" c.cellar
    cache := get "CACHE" c.cache
    storageProvider := get "STORAGE_PROVIDER" c.storageProvider
    capacityProvider := get "CAPACITY_PROVIDER" c.capacityProvider
    graphUrl := get "GRAPH_URL" c.graphUrl
    bind := get "BIND" c.bind
    receiverPath := get "RECEIVER_PATH" c.receiverPath }
  let c ← match env.get? "NBREW_JOBS" with
    | none => pure c
    | some v =>
      match Text.readInt v.toList with
      | .ok n => pure { c with jobs := n }
      | .error f => throw (.during "NBREW_JOBS" (.notNumber v f))
  return match env.get? "NBREW_PLATFORMS" with
    | none => c
    | some v => { c with platforms := tagList v }

def textOf (d : Disk) (path : String) : Except Fault String :=
  match d.find true path with
  | .error reason => .error (.disk ⟨"open", path, reason⟩)
  | .ok (_, .dir _) =>
    .error (.during s!"parsing {path}"
      (.yaml (.unreadable s!"input error: read {path}: is a directory")))
  | .ok _ =>
    d.readText path
      (.during s!"parsing {path}" (.yaml (.unreadable "invalid leading UTF-8 octet")))

def load (d : Disk) (path : String) (env : Dict String String) : Except Fault Config := do
  let c ← if path = "" then pure {} else do
    during s!"parsing {path}" (readOver {} (← textOf d path))
  c.applyEnv env

def platformList (c : Config) : List Platform := c.platforms.map Platform.ofTag

def toJson (c : Config) : Json :=
  .obj [("platforms", Json.ofNames c.platforms),
    ("index_urls", .obj (c.indexUrls.toList.map fun (k, d) => (k, Json.ofTexts d))),
    ("tap_url", .str c.tapUrl), ("tap_path", .str c.tapPath), ("cellar", .str c.cellar),
    ("cache", .str c.cache), ("jobs", Json.ofInt c.jobs),
    ("storage_provider", .str c.storageProvider), ("capacity_provider", .str c.capacityProvider),
    ("build_slots", .obj (c.buildSlots.toList.map fun (k, n) => (k, Json.ofInt n))),
    ("graph_url", .str c.graphUrl), ("bind", .str c.bind), ("receiver_path", .str c.receiverPath),
    ("idle_timeout", Json.ofInt c.idleTimeout)]

end Config

end Taproom
