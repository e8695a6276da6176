import Taproom.Keg.Builder
import Taproom.Version

/-!
The cellar as a whole: what is installed in it, how much is installed at once, and how it goes.
-/

namespace Taproom.Builder

def installNamed (b : Builder) (lookup : String → Except Fault Formula) (o : Options) (name : String) :
    Brew Unit := do
  let f ← MonadExcept.ofExcept (lookup name)
  let _ ← (b.install f o).during s!"installing {name}"

/-- Installs the formulae of a level. After a failure the others are only wound up. -/
def installLevel (b : Builder) (lookup : String → Except Fault Formula) (o : Options) :
    List String → Brew Unit
  | [] => return
  | name :: rest => do
    match ← Brew.attempt (b.installNamed lookup o name) with
    | .ok () => installLevel b lookup o rest
    | .error e =>
      for other in rest do
        let _ ← Brew.attempt (b.cancelled.installNamed lookup o other)
      throw e

def installAll (b : Builder) (levels : List (List String)) (lookup : String → Except Fault Formula)
    (o : Options) : Brew Unit :=
  levels.forM (b.installLevel lookup o)

/-- Places a version among sorted ones, the newest of which comes first. -/
def insertVersion (v : String) : List String → List String
  | [] => [v]
  | w :: rest => if Version.compare v w = .lt then w :: insertVersion v rest else v :: w :: rest

/-- Sorts by insertion. Versions do not compare transitively, and other sorts may end differently. -/
def sortVersions (l : List String) : List String := (l.reverse.foldr insertVersion []).reverse

def installed (b : Builder) (name : String) (d : Disk) : Except Fault (List String) :=
  match ((Act.listDir (b.rack name)).run d).1 with
  | .error (.disk ⟨_, _, .missing⟩) => .ok []
  | .error e => .error e
  | .ok entries =>
    let complete := entries.filterMap fun (version, e) =>
      match e with
      | .dir _ => if d.exists? (Receipt.pathIn (Path.join [b.rack name, version])) then some version else none
      | _ => none
    .ok (sortVersions complete)

def receipt (b : Builder) (name version : String) (d : Disk) : Except Fault Receipt := do
  let content ← d.read (Receipt.pathIn (Path.join [b.cellar, name, version]))
  during s!"reading receipt of {name} {version}" (Receipt.parse ((String.fromUTF8? content).getD ""))

def uninstall (b : Builder) (name : String) : Act Unit := do
  if !(← Act.exists? (b.rack name)) then throw (.told s!"{name} is not installed")
  Act.removeAll (b.rack name)

end Taproom.Builder
