import Taproom.Http.Route
import Taproom.Manager.Basic

/-!
What a manager answers over HTTP.
-/

namespace Taproom.Manager

open Http (Call Response Route)

abbrev Answer := Response × Manager × Disk

def withGraph (m : Manager) (d : Disk) (tag : String) (k : Graph → Response) : Answer :=
  match m.graphs.get? tag with
  | some g => (k g, m, d)
  | none => (.empty 404, m, d)

def atomAnswer (g : Graph) : Response := .json 200 g.atom.toJson

def packageAnswer (name : String) (g : Graph) : Response :=
  match g.resolve name with
  | .ok p => .json 200 p.toJson
  | .error f => .fault 404 f

def dirtyAnswer (rev : String) (g : Graph) : Response :=
  .json 200 (.obj [("Rev", .str rev), ("Pkgs", Json.ofNames g.dirty)])

def orderAnswer (name kinds : String) (g : Graph) : Response :=
  match g.levels [name] (if kinds = "" then [] else splitAt kinds ',') with
  | .ok levels => .json 200 (.obj [("Levels", .arr (levels.map Json.ofNames))])
  | .error f => .fault 422 f

def dependentsAnswer (name : String) (g : Graph) : Response :=
  match g.resolve name with
  | .ok p => .json 200 (.obj [("Pkg", .str p.name), ("Dependents", Json.ofNames (g.dependents p.name))])
  | .error f => .fault 404 f

def leavesAnswer (g : Graph) : Response := .json 200 (.obj [("Pkgs", Json.ofNames g.leaves)])

def platformsAnswer (m : Manager) : Response :=
  .json 200 (.obj [("Platforms", Json.ofNames (m.platforms.map Platform.tag))])

def dispatchableAnswer (m : Manager) : Response :=
  .json 200 (.obj [
    ("Pkgs", .obj (m.dispatchable.toList.map fun (tag, names) => (tag, Json.ofNames names))),
    ("Revision", .str m.rev)])

def markAnswer (tag name : String) (failed : Bool) (m : Manager) (d : Disk) : Answer :=
  if m.graphs.contains tag then
    match m.setFailed tag name failed with
    | .ok m => (.empty 204, m, d)
    | .error f => (.fault 404 f, m, d)
  else (.empty 404, m, d)

def cleanAnswer (net : Http.Transport) (tag : String) (m : Manager) (d : Disk) : Answer :=
  if m.graphs.contains tag then
    match m.cleanPlatform net d tag with
    | .ok m => (.empty 204, m, d)
    | .error f => (.fault 500 f, m, d)
  else (.empty 404, m, d)

/-- Learns of new revisions, moves to one and compares everything with the index. -/
def syncAnswer (c : Checkout) (rev : String) (m : Manager) (d : Disk) : Answer :=
  match c.fetch.run d with
  | (.error f, d) => (.fault 500 f, m, d)
  | (.ok (), d) =>
    match m.syncTo c rev d with
    | (.error f, m, d) => (.fault 500 f, m, d)
    | (.ok (), m, d) => (.empty 204, m.clean, d)

def routes (c : Checkout) (net : Http.Transport) (call : Call) :
    List (Route (Manager → Disk → Answer)) :=
  let one (method pattern : String) (k : String → Manager → Disk → Answer) :
      Route (Manager → Disk → Answer) := ⟨method, pattern, fun parts => k (parts.headD "")⟩
  let two (method pattern : String) (k : String → String → Manager → Disk → Answer) :
      Route (Manager → Disk → Answer) :=
    ⟨method, pattern, fun parts => k (parts.headD "") (parts.getD 1 "")⟩
  [⟨"GET", "/platforms", fun _ m d => (m.platformsAnswer, m, d)⟩,
   one "GET" "/atom/*" fun tag m d => withGraph m d tag atomAnswer,
   two "GET" "/pkgs/*/*" fun tag name m d => withGraph m d tag (packageAnswer name),
   one "GET" "/dirty/*" fun tag m d => withGraph m d tag (dirtyAnswer m.rev),
   two "GET" "/order/*/*" fun tag name m d =>
     withGraph m d tag (orderAnswer name (call.queryValue "kinds")),
   two "GET" "/dependents/*/*" fun tag name m d => withGraph m d tag (dependentsAnswer name),
   one "GET" "/leaves/*" fun tag m d => withGraph m d tag leavesAnswer,
   ⟨"GET", "/dispatchable", fun _ m d => (m.dispatchableAnswer, m, d)⟩,
   two "POST" "/pkgs/*/*/fail" fun tag name m d => markAnswer tag name true m d,
   two "POST" "/pkgs/*/*/unfail" fun tag name m d => markAnswer tag name false m d,
   one "POST" "/clean/*" fun tag m d => cleanAnswer net tag m d,
   one "POST" "/syncto/*" fun rev m d => syncAnswer c rev m d]

def answer (c : Checkout) (net : Http.Transport) (call : Call) (m : Manager) (d : Disk) : Answer :=
  match Http.choose (routes c net call) call with
  | .handler h => h m d
  | .wrongMethod => (.wrongMethod, m, d)
  | .notFound => (.notFound, m, d)

end Taproom.Manager
