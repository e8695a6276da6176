import Taproom.Text.Cut

/-!
Slash-separated paths. A path is cleaned by walking its components: a dot or an empty component
stays, a double dot goes up.
-/

namespace Taproom.Path

def pieces (p : List Char) : List (List Char) := Text.splitAt '/' p

def isRooted : List Char → Bool
  | '/' :: _ => true
  | _ => false

/-- Applies one component to the components walked so far, the innermost first. -/
def enter (rooted : Bool) (walked : List (List Char)) (c : List Char) : List (List Char) :=
  if c = [] ∨ c = ['.'] then walked
  else if c = ['.', '.'] then
    match walked with
    | [] => if rooted then [] else [c]
    | top :: rest => if top = ['.', '.'] then c :: walked else rest
  else c :: walked

def walk (rooted : Bool) (p : List (List Char)) : List (List Char) :=
  (p.foldl (enter rooted) []).reverse

/-- The shortest path that names the same place without looking at the disk. -/
def cleanChars (p : List Char) : List Char :=
  let rooted := isRooted p
  let body := Text.joinWith ['/'] (walk rooted (pieces p))
  if rooted then '/' :: body
  else if body = [] then ['.'] else body

def clean (p : String) : String := String.ofList (cleanChars (Text.chars p))

/-- Joins the non-empty parts and cleans the result; nothing joins to nothing. -/
def join (parts : List String) : String :=
  match parts.filter (· ≠ "") with
  | [] => ""
  | ps => clean ("/".intercalate ps)

def isAbs (p : String) : Bool := isRooted (Text.chars p)

/-- The path that `p` names for a process that works in `cwd`. -/
def absolute (cwd p : String) : String := if isAbs p then clean p else join [cwd, p]

/-- The last component, a dot for the empty path and a slash for the root. -/
def base (p : String) : String :=
  if p = "" then "."
  else
    let trimmed := (Text.chars p).reverse.dropWhile (· = '/')
    if trimmed = [] then "/"
    else String.ofList (trimmed.takeWhile (· ≠ '/')).reverse

def ext (p : String) : String :=
  let last := (Text.chars p).reverse.takeWhile (· ≠ '/')
  match last.span (· ≠ '.') with
  | (after, '.' :: _) => String.ofList ('.' :: after.reverse)
  | _ => ""

/-- All but the last component, cleaned. -/
def dir (p : String) : String :=
  clean (String.ofList ((Text.chars p).reverse.dropWhile (· ≠ '/')).reverse)

def stem (p : String) : String := trimSuffix (base p) (ext p)

def components (p : String) : List String :=
  (walk true (pieces (Text.chars p))).map String.ofList

def ofComponents (cs : List String) : String := "/" ++ "/".intercalate cs

end Taproom.Path
