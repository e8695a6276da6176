import Taproom.Fault
import Taproom.Formula.Basic

/-!
Bottles: prebuilt kegs, their names and where they are published.
-/

namespace Taproom.Bottle

def anyTag : String := "all"

/-- The bottle for a platform: the one with its tag, else the one for all. -/
def select? (f : Formula) (p : Platform) : Option (String × String) :=
  match f.bottle with
  | none => none
  | some b =>
    match b.files.get? p.tag with
    | some sum => some (p.tag, sum)
    | none => (b.files.get? anyTag).map fun sum => (anyTag, sum)

def rebuildMark (rebuild : Int) : List Char :=
  if 0 < rebuild then '.' :: (toString rebuild).toList else []

def fileNameChars (name version tag : List Char) (rebuild : Int) : List Char :=
  name ++ ['-', '-'] ++ version ++ ['.'] ++ tag ++ ".bottle".toList ++ rebuildMark rebuild ++
    ".tar.gz".toList

def fileNameFor (name version tag : String) (rebuild : Int) : String :=
  String.ofList (fileNameChars name.toList version.toList tag.toList rebuild)

structure Label where
  name : String
  version : String
  tag : String
  deriving DecidableEq, Repr, Inhabited

/-- Splits the file name of a bottle. It must be a bare file name with a package name, a version
and a tag; what stands after `.bottle` does not matter. -/
def parseFileNameChars? (s : List Char) : Option (List Char × List Char × List Char) := do
  let base ← Text.dropSuffix? ".tar.gz".toList s
  if s.contains '/' then none
  let (name, _) ← Text.cut? ['-', '-'] base
  let (body, _) ← Text.cut? ".bottle".toList base
  if name = [] || body.length < name.length then none
  let rest := body.drop (name.length + 2)
  if body.length < name.length + 2 then none
  let (version, tag) ← Text.cutLast? ['.'] rest
  if version = [] || tag = [] then none
  some (name, version, tag)

def parseFileName? (s : String) : Option Label :=
  (parseFileNameChars? s.toList).map fun (name, version, tag) =>
    ⟨String.ofList name, String.ofList version, String.ofList tag⟩

def fileName? (f : Formula) (tag : String) : Option String :=
  f.packageVersion?.map fun v =>
    fileNameFor f.name v tag ((f.bottle.map (·.rebuild)).getD 0)

def url (f : Formula) (tag : String) : Except Fault String :=
  match f.bottle with
  | none => .error (.noRootUrl f.name)
  | some b =>
    if b.rootUrl = "" then .error (.noRootUrl f.name)
    else
      match fileName? f tag with
      | some file => .ok (trimSuffix b.rootUrl "/" ++ "/" ++ file)
      | none => .error (.noVersion f.name)

def source (f : Formula) (p : Platform) : Except Fault Source :=
  match select? f p with
  | none => .error (.noBottle f.name p.tag)
  | some (tag, sum) => (url f tag).map fun u => { url := u, sha256 := sum }

end Taproom.Bottle
