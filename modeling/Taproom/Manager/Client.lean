import Taproom.Graph.Record
import Taproom.Http.Client

/-!
Asking a manager over HTTP.
-/

namespace Taproom

structure Dispatchable where
  packages : Dict String (List String) := {}
  revision : String := ""
  deriving Inhabited

namespace Dispatchable

def texts? : Json → Option (List String)
  | .null => some []
  | .arr items => items.mapM (Json.text? "")
  | _ => none

def setField (field : String) (v : Json) (s : Dispatchable) : Option Dispatchable :=
  match field with
  | "pkgs" => return { s with packages := ← Json.dict? texts? s.packages v }
  | "revision" => return { s with revision := ← Json.text? s.revision v }
  | _ => some s

def misfit : Json → Json.Fault
  | .obj _ => .misfit "value" "struct field Dispatchable.Pkgs " "map[string][]string"
  | .arr _ => .misfit "array" "value " "graph.Dispatchable"
  | .str _ => .misfit "string" "value " "graph.Dispatchable"
  | .num _ => .misfit "number" "value " "graph.Dispatchable"
  | .bool _ => .misfit "bool" "value " "graph.Dispatchable"
  | .null => .misfit "null" "value " "graph.Dispatchable"

def parse (s : String) : Except Json.Fault Dispatchable := do
  let v ← Json.parse s
  match Json.readFields setField {} v with
  | some d => return d
  | none => throw (misfit v)

def latest : List (Platform × List String) → List (Platform × List String)
  | [] => []
  | e :: rest => if rest.any fun later => later.1 = e.1 then latest rest else e :: latest rest

/-- The packages by platform, in ascending order of the tags. Of several tags for one platform the
last one counts. -/
def byPlatform (s : Dispatchable) : List (Platform × List String) :=
  latest (s.packages.toList.map fun (tag, names) => (Platform.ofTag tag, names))

end Dispatchable

namespace Manager

structure Client where
  net : Http.Transport
  url : String

namespace Client

def new (net : Http.Transport) (url : String) : Client := ⟨net, trimSuffix url "/"⟩

def complaint (r : Http.Response) : String :=
  let told := match (String.fromUTF8? r.body).map Json.parse with
    | some (.ok v) => ((v.member? "Error").bind (Json.text? "")).getD ""
    | _ => ""
  if told = "" then Http.statusLine r.status else told

def ask (c : Client) (method endpoint : String) : Except Fault String := do
  if c.url = "" then throw (.told "graph API url not set")
  let r ← Http.send c.net method (c.url ++ endpoint) .empty ""
  if r.status ≥ 300 then throw (.told s!"{method} {endpoint}: {complaint r}")
  return (String.fromUTF8? r.body).getD ""

def clean (c : Client) (tag : String) : Except Fault Unit := do
  let _ ← c.ask "POST" ("/clean/" ++ tag)

def syncTo (c : Client) (rev : String) : Except Fault Unit := do
  let _ ← c.ask "POST" ("/syncto/" ++ rev)

def fail (c : Client) (tag name : String) : Except Fault Unit := do
  let _ ← c.ask "POST" ("/pkgs/" ++ tag ++ "/" ++ name ++ "/fail")

def dispatchable (c : Client) : Except Fault Dispatchable := do
  (Dispatchable.parse (← c.ask "GET" "/dispatchable")).mapError .json

end Client

end Manager

end Taproom
