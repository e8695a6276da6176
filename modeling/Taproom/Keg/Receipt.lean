import Taproom.Calendar.Layout
import Taproom.Fault
import Taproom.Graph.Record
import Taproom.Json
import Taproom.Path

/-!
Receipts, which say how a keg came to be. A keg with a receipt is complete.
-/

namespace Taproom

structure Receipt where
  name : String := ""
  version : String := ""
  platform : String := ""
  isPoured : Bool := false
  isHead : Bool := false
  source : String := ""
  runtimeDepends : List String := []
  /-- When the keg was completed; no time at all is the beginning of time. -/
  installedAt : String := "0001-01-01T00:00:00Z"
  deriving DecidableEq, Repr

namespace Receipt

def fileName : String := "INSTALL_RECEIPT.json"

def pathIn (keg : String) : String := Path.join [keg, fileName]

def hasTime (r : Receipt) : Bool :=
  !(Calendar.Layout.internet.read? r.installedAt).any Calendar.Moment.isBeginning

def toJson (r : Receipt) : Json :=
  .obj [("Name", .str r.name), ("PkgVer", .str r.version), ("Platform", .str r.platform),
    ("PouredFromBottle", .bool r.isPoured), ("Head", .bool r.isHead), ("Source", .str r.source),
    ("RuntimeDepends", if r.runtimeDepends.isEmpty then .null else Json.ofNames r.runtimeDepends),
    ("InstalledAt", .str r.installedAt)]

def sortOf : Json → String
  | .null => "null"
  | .bool _ => "bool"
  | .num _ => "number"
  | .str _ => "string"
  | .arr _ => "array"
  | .obj _ => "object"

abbrev Reading (α : Type) := α × Option Fault

def misfit (v : Json) (field type : String) : Fault :=
  .told s!"json: cannot unmarshal {sortOf v} into Go struct field Receipt.{field} of type {type}"

def readText (field : String) (old : String) : Json → Reading String
  | .str s => (s, none)
  | .null => (old, none)
  | v => (old, some (misfit v field "string"))

def readFlag (field : String) (old : Bool) : Json → Reading Bool
  | .bool b => (b, none)
  | .null => (old, none)
  | v => (old, some (misfit v field "bool"))

def readItem (field : String) (place : Nat) : Json → Reading String
  | .str s => (s, none)
  | .null => ("", none)
  | v => ("", some (.told
      s!"json: cannot unmarshal {sortOf v} into Receipt.{field}.{place} of type string"))

def readNames (field : String) (old : List String) : Json → Reading (List String)
  | .arr l =>
    let read := l.zipIdx.map fun (v, i) => readItem field i v
    (read.map (·.1), (read.filterMap (·.2)).head?)
  | .null => ([], none)
  | v => (old, some (misfit v field "[]string"))

def readTime (field : String) (old : String) : Json → Reading String
  | .str s =>
    match Calendar.Layout.internet.read s with
    | .ok _ => (s, none)
    | .error m => (old, some (.told (m.message s)))
  | .null => (old, none)
  | v => (old, some (misfit v field "time.Time"))

def readMember (r : Reading Receipt) (key : String) (v : Json) : Reading Receipt :=
  let put {α : Type} (read : Reading α) (set : Receipt → α → Receipt) : Reading Receipt :=
    (set r.1 read.1, r.2.or read.2)
  match Json.fieldName key with
  | "name" => put (readText key r.1.name v) fun r x => { r with name := x }
  | "pkgver" => put (readText key r.1.version v) fun r x => { r with version := x }
  | "platform" => put (readText key r.1.platform v) fun r x => { r with platform := x }
  | "pouredfrombottle" => put (readFlag key r.1.isPoured v) fun r x => { r with isPoured := x }
  | "head" => put (readFlag key r.1.isHead v) fun r x => { r with isHead := x }
  | "source" => put (readText key r.1.source v) fun r x => { r with source := x }
  | "runtimedepends" =>
    put (readNames key r.1.runtimeDepends v) fun r x => { r with runtimeDepends := x }
  | "installedat" => put (readTime key r.1.installedAt v) fun r x => { r with installedAt := x }
  | _ => r

def ofJson (v : Json) : Except Fault Receipt :=
  match v with
  | .obj members =>
    match members.foldl (fun r (k, v) => readMember r k v) ({}, none) with
    | (r, none) => .ok r
    | (_, some f) => .error f
  | .null => .ok {}
  | v => .error (.told s!"json: cannot unmarshal {sortOf v} into Go value of type builder.Receipt")

def parse (text : String) : Except Fault Receipt := do
  ofJson (← (Json.parse text).mapError .json)

def render (r : Receipt) : String := Json.renderIndented 0 r.toJson

end Receipt

end Taproom
