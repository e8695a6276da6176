import Taproom.Graph.Package
import Taproom.Json

/-!
Atoms as JSON, which is how they are kept between runs and sent to clients. Reading starts from an
atom and changes what the text mentions; keys may be written in any case.
-/

namespace Taproom

namespace Json

def lower (s : String) : String :=
  s.map fun c => if 'A' ≤ c && c ≤ 'Z' then Char.ofNat (c.toNat + 32) else c

/-- The name of a field, which may be written in any case. The long s and the sign for kelvin are
letters in another case as well. -/
def fieldName (key : String) : String :=
  lower (key.map fun c => if c = '\u017f' then 's' else if c = '\u212a' then 'k' else c)

def readFields {α : Type} (set : String → Json → α → Option α) (start : α) : Json → Option α
  | .null => some start
  | .obj members => members.foldlM (fun a (k, v) => set (fieldName k) v a) start
  | _ => none

def text? (old : String) : Json → Option String
  | .str s => some s
  | .null => some old
  | _ => none

def bool? (old : Bool) : Json → Option Bool
  | .bool b => some b
  | .null => some old
  | _ => none

def dict? {α : Type} (read : Json → Option α) (old : Dict String α) : Json → Option (Dict String α)
  | .null => some {}
  | .obj members => members.foldlM (fun d (k, v) => return d.insert k (← read v)) old
  | _ => none

end Json

namespace Names

def toJson (n : Names) : Json := .obj (n.toList.map fun k => (k, .obj []))

def ofJson? (old : Names) (v : Json) : Option Names :=
  Json.dict? (fun v => match v with
    | .null | .obj _ => some ()
    | _ => none) old v

end Names

def Dict.toJson (d : Dict String String) : Json := .obj (d.toList.map fun (k, v) => (k, .str v))

namespace Package

def toJson (p : Package) : Json :=
  .obj [("Name", .str p.name), ("Version", .str p.version), ("Dirty", .bool p.dirty),
    ("Failed", .bool p.failed), ("Disabled", .bool p.disabled), ("BuildDepends", p.build.toJson),
    ("Depends", p.run.toJson), ("TestDepends", p.test.toJson)]

def setField (field : String) (v : Json) (p : Package) : Option Package :=
  match field with
  | "name" => return { p with name := ← Json.text? p.name v }
  | "version" => return { p with version := ← Json.text? p.version v }
  | "dirty" => return { p with dirty := ← Json.bool? p.dirty v }
  | "failed" => return { p with failed := ← Json.bool? p.failed v }
  | "disabled" => return { p with disabled := ← Json.bool? p.disabled v }
  | "builddepends" => return { p with build := ← Names.ofJson? p.build v }
  | "depends" => return { p with run := ← Names.ofJson? p.run v }
  | "testdepends" => return { p with test := ← Names.ofJson? p.test v }
  | _ => some p

def ofJson? (v : Json) : Option Package := Json.readFields setField {} v

end Package

namespace Platform

def toJson (p : Platform) : Json := .obj [("Arch", .str p.arch), ("OS", .str p.system)]

def setField (field : String) (v : Json) (p : Platform) : Option Platform :=
  match field with
  | "arch" => return { p with arch := ← Json.text? p.arch v }
  | "os" => return { p with system := ← Json.text? p.system v }
  | _ => some p

end Platform

namespace Atom

def toJson (a : Atom) : Json :=
  .obj [("Platform", a.platform.toJson), ("Rev", .str a.rev),
    ("Pkgs", .obj (a.packages.toList.map fun (k, p) => (k, p.toJson))),
    ("Aliases", a.aliases.toJson), ("Bad", a.bad.toJson)]

def setField (field : String) (v : Json) (a : Atom) : Option Atom :=
  match field with
  | "platform" => return { a with platform := ← Json.readFields Platform.setField a.platform v }
  | "rev" => return { a with rev := ← Json.text? a.rev v }
  | "pkgs" => return { a with packages := ← Json.dict? Package.ofJson? a.packages v }
  | "aliases" => return { a with aliases := ← Json.dict? (Json.text? "") a.aliases v }
  | "bad" => return { a with bad := ← Json.dict? (Json.text? "") a.bad v }
  | _ => some a

def encode (a : Atom) : String := a.toJson.render

/-- The atom that a text describes, if it describes one. What it leaves out is as in `start`. -/
def decode? (start : Atom) (s : String) : Option Atom :=
  match Json.parse s with
  | .ok v => Json.readFields setField start v
  | .error _ => none

end Atom

end Taproom
