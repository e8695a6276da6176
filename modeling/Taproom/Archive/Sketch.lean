import Taproom.Archive.Gzip
import Taproom.Archive.Tar
import Taproom.Archive.Zip
import Taproom.Archive.Zstd
import Taproom.Json
import Taproom.Text.Base64
import Taproom.Text.Number

/-!
Archives from sketches of what they hold. A sketch is an object that names a format and gives
either the entries or the content.
-/

namespace Taproom.Archive.Sketch

def text (v : Json) (key : String) : String :=
  match v.member? key with
  | some (.str s) => s
  | _ => ""

def number (v : Json) (key : String) : Nat :=
  match v.member? key with
  | some (.num d) => ((Text.readInt? d.toList).getD 0).toNat
  | _ => 0

def modeOf (v : Json) : Nat :=
  match v.member? "mode" with
  | some (.num d) => (((Text.readInt? d.toList).getD 0) % 4294967296).toNat
  | _ => 0

/-- The bits of a sketched mode beyond the permissions, each with the bits it stands for when the
mode is stored. A device that is read by characters has a bit more. -/
def storedType (mode : Nat) : Nat :=
  match [31, 27, 26, 25, 24, 21, 19].filter mode.testBit with
  | [31] => Zip.dirType
  | [27] => 0o120000
  | [26] => 0o060000
  | [26, 21] => 0o020000
  | [25] => 0o010000
  | [24] => 0o140000
  | _ => 0o100000

def storedMode (mode : Nat) : Nat :=
  storedType mode + (if mode.testBit 23 then 0o4000 else 0) + (if mode.testBit 22 then 0o2000 else 0) +
    (if mode.testBit 20 then 0o1000 else 0) + mode % 512

def kindOf (type : String) : Tar.Kind :=
  match type with
  | "dir" => .dir
  | "symlink" => .symlink
  | "link" => .hardLink
  | "fifo" => .other 0x36
  | "char" => .other 0x33
  | "block" => .other 0x34
  | "global" => .note
  | _ => .file

def tarEntry (v : Json) : Tar.Entry :=
  let name := text v "name"
  let content := ofText (text v "content")
  let kind := kindOf (text v "type")
  { name := if kind = .note && name = "" then "GlobalHead.0.0" else name
    kind
    mode := modeOf v
    content := if kind = .note then Tar.record "comment" content else content
    link := text v "link" }

def zipEntry (v : Json) : Zip.Entry :=
  let mode := modeOf v
  { name := text v "name"
    mode := if mode = 0 then none else some (storedMode mode)
    content := ofText (text v "content") }

def bytes (v : Json) : Bytes :=
  let entries := match v.member? "entries" with
    | some (.arr l) => l
    | _ => []
  let tar := Tar.encode (entries.map tarEntry)
  let content := ofText (text v "content")
  let all := match text v "format" with
    | "tar" => tar
    | "tar.gz" => Gzip.encode tar
    | "tar.zst" => Zstd.encode tar
    | "zip" => Zip.encode (entries.map zipEntry)
    | "tar.bz2" => ((Base64.decode? (text v "content")).getD .empty).toList
    | "gz" => Gzip.encode content
    | "zst" => Zstd.encode content
    | _ => content
  let keep := number v "truncate"
  if keep > 0 then all.take keep else all

end Taproom.Archive.Sketch
