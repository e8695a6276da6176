import Taproom.Disk.Basic
import Taproom.Text.PathPattern

/-!
Finding the paths below a directory that are instances of a pattern.
-/

namespace Taproom.Disk

open PathPattern

/-- A search below `root`. Paths are relative to it. -/
structure Search where
  disk : Disk
  root : String

namespace Search

abbrev Found := Option (List String)

def isPlain (path : String) : Bool :=
  path = "." || (splitAt path '/').all fun part => part ≠ "" && part ≠ "." && part ≠ ".."

def locate? (s : Search) (path : String) : Option (Place × Entry) :=
  if isPlain path then (s.disk.find true (Path.join [s.root, path])).toOption else none

def isDir (s : Search) (path : String) : Bool :=
  match s.locate? path with
  | some (_, .dir _) => true
  | _ => false

def names (s : Search) (path : String) : List String :=
  match s.locate? path with
  | some (p, .dir _) => (s.disk.children p).map (·.1)
  | _ => []

def dirsFrom (s : Search) (fuel : Nat) (path : String) : List String :=
  match fuel with
  | 0 => []
  | fuel + 1 =>
    if !s.isDir path then []
    else
      path :: ((s.names path).map fun n => Path.join [path, n]).flatMap fun p => s.dirsFrom fuel p

/-- What is in a directory and an instance of one part of a pattern. Only the last part of a pattern
may name files. -/
def inDir (s : Search) (last : Bool) (part : List Char) (dir : String) : Found :=
  if part.isEmpty then some (if s.isDir dir then [dir] else [])
  else if part = ['*', '*'] then
    some ((s.dirsFrom (s.disk.tree.size + 1) dir).flatMap fun p =>
      p :: if last then ((s.names p).map fun n => Path.join [p, n]).filter (!s.isDir ·) else [])
  else do
    let here ← (s.names dir).filterM fun n => holds? part n.toList
    return (here.map fun n => Path.join [dir, n]).filter fun p => last || s.isDir p

def insertPath (p : String) : List String → List String
  | [] => [p]
  | q :: rest => if p < q then p :: q :: rest else if p = q then q :: rest else q :: insertPath p rest

def splitOut (s : List Char) (place : Nat) : List Char × List Char := (s.take place, s.drop (place + 1))

/-- The paths that are instances of a pattern, directory by directory; those of alternatives in
ascending order. -/
def run (s : Search) (fuel : Nat) (last : Bool) (pattern : List Char) : Found :=
  match fuel with
  | 0 => some []
  | fuel + 1 =>
    match firstMeta? 0 pattern with
    | none =>
      let path := String.ofList (literal pattern)
      let path := if path.length > 1 && endsWith path "/" then (path.dropEnd 1).toString else path
      some (if (s.locate? path).isSome then [String.ofList (literal pattern)] else [])
    | some start =>
      let split (place : Option Nat) : Found :=
        match place with
        | none => s.inDir last pattern "."
        | some place =>
          let (dir, part) := splitOut pattern place
          if place ≤ start then s.inDir last part (String.ofList (literal dir))
          else do
            let dirs ← s.run fuel false dir
            return (← dirs.mapM (s.inDir last part)).flatten
      match lastPlace? (fun c => c = '/' || c = '\x7d') pattern with
      | none => split none
      | some place =>
        if pattern[place]? = some '/' then split (some place)
        else
          let (before, after) := splitOut pattern place
          match opening? 1 before.length before.reverse with
          | none => split (lastPlace? (· = '/') before)
          | some opened =>
            let (outer, inner) := splitOut before opened
            let (dirs, stem) : Found × List Char :=
              match lastPlace? (fun c => c = '/' || c = '\x7d') outer with
              | some place =>
                if outer[place]? = some '/' then
                  (s.run fuel false (splitOut outer place).1, (splitOut outer place).2)
                else (some [""], outer)
              | none => (some [""], outer)
            do
              let found ← (← dirs).mapM fun dir => do
                let place := if dir = "" || dir = "." then [] else dir.toList ++ ['/']
                let found ← (alternatives 0 [] inner).mapM fun choice =>
                  s.run fuel last (place ++ stem ++ choice ++ after)
                return found.flatten
              return found.flatten.foldl (fun all p => insertPath p all) []

/-- The paths below the root that are instances of a pattern. None when it is malformed. -/
def paths (s : Search) (pattern : String) : Found :=
  let p := pattern.toList
  if isValid (p.length + 1) 0 p then s.run (p.length + 100) true p else none

end Search

end Taproom.Disk
