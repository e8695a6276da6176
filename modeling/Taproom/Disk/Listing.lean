import Taproom.Archive.Zstd
import Taproom.Disk.Basic
import Taproom.Json
import Taproom.Text.Base64

/-!
What lies at a place on the disk and below it, as JSON.
-/

namespace Taproom.Disk

/-- The content of a file as a text: what is compressed is only said to be so, and bytes that are
no text are encoded. -/
def Body.shown (b : Body) : String :=
  let bytes := b.content.toList
  if [0x1f, 0x8b].isPrefixOf bytes || Zstd.magic.isPrefixOf bytes then "<compressed>"
  else
    match String.fromUTF8? b.content with
    | some s => s
    | none => "base64:" ++ Base64.encode b.content

def listed (d : Disk) (path : String) (e : Entry) : List (String × Json) :=
  let base := ("path", Json.str path)
  match e with
  | .dir _ => [base, ("type", .str "dir")]
  | .link target => [base, ("type", .str "symlink"), ("link", .str target)]
  | .file _ =>
    match d.bodyOf? e with
    | none => [base, ("type", .str "file")]
    | some b => [base, ("type", .str "file"), ("mode", Json.ofInt (b.mode % 512)),
        ("content", .str b.shown)]

/-- The entries at a path: those below it if it is a directory, else itself. Places of which
`skip` holds are left out. -/
def listing (d : Disk) (skip : List String → Bool) (path : String) :
    Option (List (String × List (String × Json))) :=
  match d.find false path with
  | .error _ => none
  | .ok (place, .dir _) =>
    some ((d.below place).filterMap fun (names, e) =>
      if skip names then none
      else
        let rel := "/".intercalate names
        some (rel, d.listed rel e))
  | .ok (_, e) => some [(".", d.listed "." e)]

end Taproom.Disk
