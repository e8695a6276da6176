import Taproom.Dict
import Taproom.Path
import Taproom.Text.Substitute

/-!
The variables that the steps of a formula may use.
-/

namespace Taproom

/-- Values by name. Unknown names are left alone in a text, so that shell snippets keep theirs. -/
abbrev Variables := Dict String String

namespace Variables

def ofKeg (name version keg : String) : Variables :=
  .ofList
    [("name", name), ("version", version), ("prefix", keg),
     ("bin", Path.join [keg, "bin"]), ("sbin", Path.join [keg, "sbin"]),
     ("lib", Path.join [keg, "lib"]), ("include", Path.join [keg, "include"]),
     ("share", Path.join [keg, "share"]), ("etc", Path.join [keg, "etc"]),
     ("man", Path.join [keg, "share", "man"]), ("var", Path.join [keg, "var"])]

def expand (v : Variables) (s : String) : String :=
  String.ofList
    (Text.expandVariables (fun name => (v.get? (String.ofList name)).map String.toList) s.toList)

end Variables

end Taproom
