import Taproom.Dict
import Taproom.Platform

/-!
Builds: one package for one platform at one revision of the tap.
-/

namespace Taproom

structure Build where
  platform : Platform
  package : String
  rev : String
  deriving DecidableEq, Repr, Inhabited

namespace Build

def toDict (b : Build) : Dict String String :=
  .ofList [("platform", b.platform.tag), ("formula", b.package), ("revision", b.rev)]

def ofDict (d : Dict String String) : Build :=
  ⟨.ofTag (d.getD "platform" ""), d.getD "formula" "", d.getD "revision" ""⟩

end Build

end Taproom
