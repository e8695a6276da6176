import Taproom.Path
import Taproom.Semver
import Taproom.Text.Number

/-!
Versions of packages. A package version is the version of the software, followed by an underscore
and the revision of its formula when that is positive.
-/

namespace Taproom.Version

def archiveEndings : List String :=
  [".gz", ".tgz", ".bz2", ".tbz", ".xz", ".txz", ".zst", ".zip", ".7z"]

def stripArchive (s : List Char) : List Char :=
  match archiveEndings.findSome? fun e => Text.dropSuffix? e.toList s with
  | some body => (Text.dropSuffix? ".tar".toList body).getD body
  | none => (Text.dropSuffix? ".tar".toList s).getD s

def preWords : List String := ["alpha", "beta", "rc", "pre", "p"]

def isLower (c : Char) : Bool := 'a' ≤ c && c ≤ 'z'

def isLetterTail : List Char → Bool
  | [] => true
  | [c] => isLower c
  | _ => false

/-- What may follow the numbers: a pre-release word with its number, and a letter. -/
def isTail (s : List Char) : Bool :=
  let body := match s with
    | c :: rest => if c = '-' ∨ c = '.' ∨ c = '_' then rest else s
    | [] => s
  isLetterTail s || preWords.any fun w =>
    match Text.dropPrefix? w.toList body with
    | some rest => isLetterTail (rest.dropWhile Text.isDigit)
    | none => false

/-- The rest after the digits at the front, of which there must be one. -/
def dropDigits? (s : List Char) : Option (List Char) :=
  match s with
  | c :: rest => if Text.isDigit c then some (rest.dropWhile Text.isDigit) else none
  | [] => none

def isVersionOf : Nat → List Char → Bool
  | 0, _ => false
  | fuel + 1, s =>
    match dropDigits? s with
    | none => false
    | some rest =>
      isTail rest ||
        match rest with
        | '.' :: more => isVersionOf fuel more
        | _ => false

def isVersion (s : List Char) : Bool := isVersionOf (s.length + 1) s

/-- The version that fills all of `s`, after a `v` or not. -/
def wholeVersion? (s : List Char) : Option (List Char) :=
  match s with
  | 'v' :: rest => if isVersion rest then some rest else none
  | _ => if isVersion s then some s else none

/-- The longest ending of `s` that is a version and follows a dash, an underscore or a dot. -/
def afterMark? : List Char → Option (List Char)
  | [] => none
  | c :: rest =>
    if c = '-' ∨ c = '_' ∨ c = '.' then
      match wholeVersion? rest with
      | some v => some v
      | none => afterMark? rest
    else afterMark? rest

/-- The version in a file name: all of it or what follows the first mark that allows one. -/
def ofName? (s : List Char) : Option (List Char) := (wholeVersion? s).or (afterMark? s)

def ofUrl (url : String) : String :=
  if url = "" then ""
  else
    let address := String.ofList (url.toList.takeWhile fun c => c ≠ '?' ∧ c ≠ '#')
    match ofName? (stripArchive (Path.base address).toList) with
    | some v => String.ofList v
    | none => ""

def withRevision (version : String) (revision : Int) : String :=
  if 0 < revision then version ++ "_" ++ toString revision else version

/-- The version and the revision after its last underscore; a text that is no number is none. -/
def splitRevision (v : List Char) : List Char × Int :=
  match Text.cutLast? ['_'] v with
  | none => (v, 0)
  | some (before, after) =>
    match Text.readInt? after with
    | some n => (before, n)
    | none => (v, 0)

/-- Two versions that both read as semantic versions compare as such, all others as texts. -/
def compareParts (a b : List Char) : Ordering :=
  match Semver.parseTolerant? a, Semver.parseTolerant? b with
  | some x, some y => x.compare y
  | _, _ => Semver.compareChars a b

def compare (a b : String) : Ordering :=
  let (av, ar) := splitRevision a.toList
  let (bv, br) := splitRevision b.toList
  (compareParts av bv).then (Ord.compare ar br)

end Taproom.Version
