/-!
What can be wrong with a YAML text.
-/

namespace Taproom.Yaml

inductive Fault where
  /-- The text is not YAML, or holds a value that cannot be read at all. -/
  | unreadable (problem : String)
  /-- The text is YAML, but some values are of the wrong kind. Each complaint names its line. -/
  | misfit (complaints : List String)
  | nothing
  deriving DecidableEq, Repr

namespace Fault

def message : Fault → String
  | unreadable problem => "yaml: " ++ problem
  | misfit complaints => "yaml: unmarshal errors:\n  " ++ "\n  ".intercalate complaints
  | nothing => "EOF"

end Fault

end Taproom.Yaml
