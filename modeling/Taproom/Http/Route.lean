import Taproom.Http.Client
import Taproom.Json

/-!
Choosing what answers a request. A pattern is a path in which `*` stands for any one part.
-/

namespace Taproom.Http

structure Call where
  method : String
  path : String
  query : List (String × String) := []
  body : ByteArray := .empty

def decodeQuery? (s : List Char) : Option String :=
  match Url.decode (s.map fun c => if c = '+' then ' ' else c) with
  | .ok t => some t
  | .error _ => none

/-- The pairs of a query; those that cannot be decoded are left out. -/
def readQuery (s : String) : List (String × String) :=
  (Text.splitAt '&' s.toList).filterMap fun piece =>
    if piece.isEmpty || piece.contains ';' then none
    else do
      let (k, v) := (Text.cut? ['='] piece).getD (piece, [])
      return (← decodeQuery? k, ← decodeQuery? v)

def Call.queryValue (c : Call) (key : String) : String :=
  ((c.query.find? (·.1 = key)).map (·.2)).getD ""

/-- The path by which a request is routed: decoded, unless that would lose how it was written. -/
def routedPath (written : String) : String :=
  match Url.decode written.toList with
  | .ok path => if Url.encodePath path = written then path else written
  | .error _ => written

def Call.of (method target : String) (body : ByteArray) : Call :=
  let (path, query) := (Text.cut? ['?'] target.toList).getD (target.toList, [])
  { method, path := routedPath (String.ofList path), query := readQuery (String.ofList query), body }

/-- The parts that stand where a pattern has `*`. The last part of a path must not be empty
there. -/
def matchParts : List String → List String → Option (List String)
  | [], [] => some []
  | "*" :: ps, part :: rest =>
    if rest.isEmpty && part = "" then none else (matchParts ps rest).map (part :: ·)
  | p :: ps, part :: rest => if p = part then matchParts ps rest else none
  | _, _ => none

/-- What a pattern asks for, and who answers it with the parts in the pattern's open places. -/
structure Route (α : Type) where
  method : String
  pattern : String
  handler : List String → α

def knownMethods : List String :=
  ["CONNECT", "DELETE", "GET", "HEAD", "OPTIONS", "PATCH", "POST", "PUT", "TRACE"]

inductive Choice (α : Type) where
  | handler (h : α)
  | wrongMethod
  | notFound

def choose {α : Type} (routes : List (Route α)) (c : Call) : Choice α :=
  if !knownMethods.contains c.method then .wrongMethod
  else
    let fitting := routes.filterMap fun r =>
      (matchParts (splitAt r.pattern '/') (splitAt c.path '/')).map fun parts => (r, parts)
    match fitting.find? fun (r, _) => r.method = c.method with
    | some (r, parts) => .handler (r.handler parts)
    | none => if fitting.isEmpty then .notFound else .wrongMethod

def below? (mount path : String) : Option String :=
  if path = mount then some "/"
  else if startsWith path (mount ++ "/") then some (trimPrefix path mount)
  else none

namespace Response

def empty (status : Nat) : Response := { status }

def text (status : Nat) (contentType body : String) : Response :=
  { status, contentType, body := body.toUTF8 }

def json (status : Nat) (v : Json) : Response :=
  { status, contentType := "application/json", body := (v.render ++ "\n").toUTF8 }

def fault (status : Nat) (f : Fault) : Response := json status (.obj [("Error", .str f.message)])

def notFound : Response := text 404 "text/plain; charset=utf-8" "404 page not found\n"

def wrongMethod : Response := empty 405

end Response

end Taproom.Http
