import Taproom.Text.Cut

/-!
Platforms, each a processor architecture with an operating system, and their bottle tags.
-/

namespace Taproom

/-- The system is `linux` or the name of a macOS release. -/
structure Platform where
  arch : String
  system : String
  deriving DecidableEq, Repr, Inhabited

namespace Platform

def isMacOS (p : Platform) : Bool := p.system != "linux"

/-- An Intel macOS release stands alone, everything else follows its architecture. -/
def tag (p : Platform) : String :=
  if p.isMacOS && p.arch == "x86_64" then p.system else p.arch ++ "_" ++ p.system

def ofTag (tag : String) : Platform :=
  match Text.dropPrefix? "x86_64_".toList tag.toList with
  | some system => ⟨"x86_64", String.ofList system⟩
  | none =>
    match Text.dropPrefix? "arm64_".toList tag.toList with
    | some system => ⟨"arm64", String.ofList system⟩
    | none => ⟨"x86_64", tag⟩

def host : Platform := ⟨"x86_64", "linux"⟩

/-- Whether something restricted to `on` concerns `p`; no restriction concerns everyone. -/
def among (on : List String) (p : Platform) : Bool :=
  on.isEmpty || on.any fun o =>
    (o == "macos" && p.isMacOS) || (o == "linux" && !p.isMacOS) || o == p.system

end Platform

end Taproom
