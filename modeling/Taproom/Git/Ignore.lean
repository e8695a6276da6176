import Taproom.Disk.Action
import Taproom.Text.Glob

/-!
The files of a work tree that it asks to be left alone. Rules stand in files of their own, one in a
line; a rule speaks of the paths below the directory where it stands, and later rules go before
earlier ones.
-/

namespace Taproom.Git.Ignore

def fileName : String := ".gitignore"

def readRanges (fuel : Nat) (first : Bool) (s : List Char) :
    Option (List (Char × Char) × List Char) :=
  let one : List Char → Option (Char × List Char)
    | '\\' :: c :: rest => some (c, rest)
    | c :: rest => if ['\\', '-', ']'].contains c then none else some (c, rest)
    | [] => none
  match fuel, s, first with
  | 0, _, _ => none
  | _ + 1, ']' :: rest, false => some ([], rest)
  | fuel + 1, s, _ => do
    let (lo, rest) ← one s
    let (hi, rest) ← match rest with
      | '-' :: more => one more
      | rest => some (lo, rest)
    let (ranges, rest) ← readRanges fuel false rest
    some ((lo, hi) :: ranges, rest)

def pieces? (fuel : Nat) (s : List Char) : Option (List Glob.Piece) :=
  match fuel, s with
  | _, [] => some []
  | 0, _ => none
  | fuel + 1, '*' :: rest => (pieces? fuel rest).map (.star :: ·)
  | fuel + 1, '?' :: rest => (pieces? fuel rest).map (.any :: ·)
  | fuel + 1, '\\' :: c :: rest => (pieces? fuel rest).map (.char c :: ·)
  | _ + 1, ['\\'] => none
  | fuel + 1, '[' :: rest => do
    let (negated, body) := match rest with
      | '^' :: body => (true, body)
      | body => (false, body)
    let (ranges, rest) ← readRanges (body.length + 1) true body
    return .set negated ranges :: (← pieces? fuel rest)
  | fuel + 1, c :: rest => (pieces? fuel rest).map (.char c :: ·)

/-- Whether a name is an instance of a pattern; `none` when the pattern is malformed. -/
def fits? (pattern : List Char) (name : String) : Option Bool :=
  (pieces? (pattern.length + 1) pattern).map fun ps => Glob.matchPieces ps name.toList

structure Rule where
  domain : List String
  admits : Bool
  dirOnly : Bool
  parts : List (List Char)

namespace Rule

def ofLine? (domain : List String) (line : List Char) : Option Rule :=
  if line.head? = some '#' || (Text.trim line).isEmpty then none
  else
    let (admits, s) := match line with
      | '!' :: rest => (true, rest)
      | line => (false, line)
    let s := if (Text.dropSuffix? ['\\', ' '] s).isSome then s
      else (s.reverse.dropWhile (· = ' ')).reverse
    let (dirOnly, s) := match Text.dropSuffix? ['/'] s with
      | some s => (true, s)
      | none => (false, s)
    some { domain, admits, dirOnly, parts := Text.splitAt '/' s }

/-- Follows a path along the parts of a rule. The result says whether the parts fit, and what of the
path is left. `loose` lets a part fit further down. -/
def walk (parts : List (List Char)) (path : List String) (fitted loose : Bool) :
    Option (Bool × List String) :=
  match parts with
  | [] => some (fitted, path)
  | part :: rest =>
    if part = [] then walk rest path fitted false
    else if part = ['*', '*'] then
      if rest = [] then some (fitted, path) else walk rest path fitted true
    else if Text.occursIn ['*', '*'] part then none
    else
      match pieces? (part.length + 1) part, path with
      | none, _ | _, [] => none
      | some ps, name :: more =>
        let fits (name : String) : Bool := Glob.matchPieces ps name.toList
        if loose then
          match (name :: more).dropWhile (!fits ·) with
          | [] => walk rest [] false false
          | _ :: below => walk rest below true false
        else if fits name then walk rest more true false
        else none

def meets (r : Rule) (pattern : List Char) : List String → Bool
  | [] => false
  | name :: rest =>
    match fits? pattern name with
    | none => false
    | some true => !(r.dirOnly && rest.isEmpty)
    | some false => meets r pattern rest

def covers (r : Rule) (path : List String) : Bool :=
  if !r.domain.isPrefixOf path then false
  else
    let path := path.drop r.domain.length
    match r.parts with
    | [pattern] => r.meets pattern path
    | parts =>
      match walk parts path false false with
      | some (fitted, left) => fitted && !(r.dirOnly && left.isEmpty)
      | none => false

end Rule

def rulesOf (domain : List String) (text : String) : List Rule :=
  (Text.splitAt '\n' text.toList).filterMap fun line =>
    Rule.ofLine? domain ((Text.dropSuffix? ['\r'] line).getD line)

/-- The rules of a tree, those of a directory before those of the directories in it. -/
def rulesIn (d : Disk) (path : String) (files : List (List String)) : List Rule :=
  let holders := (files.filter (·.getLast? = some fileName)).map List.dropLast
  let ordered := holders.mergeSort fun a b => !b.lex a fun x y => decide (x < y)
  ordered.flatMap fun domain =>
    match d.read (Path.join ([path] ++ domain ++ [fileName])) with
    | .ok b => rulesOf domain ((String.fromUTF8? b).getD "")
    | .error _ => []

/-- Whether a file is to be left alone. The last rule that speaks of it tells. -/
def holds (rules : List Rule) (path : List String) : Bool :=
  match rules.reverse.find? (·.covers path) with
  | some r => !r.admits
  | none => false

end Taproom.Git.Ignore
