import Taproom.Json

/-!
The parts of a JSON text as they are written, for those who have to keep the spelling.
-/

namespace Taproom.Json

/-- The value that a text starts with, as it is written, and what follows it. -/
def cutValue? (s : List Char) : Option (String × List Char) :=
  match readValue (2 * s.length + 2) 0 s with
  | .ok (_, rest) => some (String.ofList (s.take (s.length - rest.length)), rest.dropWhile isGap)
  | .error _ => none

def cutItems (fuel : Nat) (s : List Char) : List String :=
  match fuel with
  | 0 => []
  | fuel + 1 =>
    match cutValue? (s.dropWhile isGap) with
    | some (v, ',' :: rest) => v :: cutItems fuel rest
    | some (v, _) => [v]
    | none => []

def cutMembers (fuel : Nat) (s : List Char) : List (String × String) :=
  match fuel with
  | 0 => []
  | fuel + 1 =>
    match s.dropWhile isGap with
    | '"' :: s =>
      match readText (s.length + 1) [] [] s with
      | .error _ => []
      | .ok (key, s) =>
        match s.dropWhile isGap with
        | ':' :: s =>
          match cutValue? (s.dropWhile isGap) with
          | some (v, ',' :: rest) => (String.ofList key, v) :: cutMembers fuel rest
          | some (v, _) => [(String.ofList key, v)]
          | none => []
        | _ => []
    | _ => []

def writtenItems (text : String) : List String :=
  match text.toList.dropWhile isGap with
  | '[' :: s => cutItems (s.length + 1) s
  | _ => []

def writtenMembers (text : String) : List (String × String) :=
  match text.toList.dropWhile isGap with
  | '\x7b' :: s => cutMembers (s.length + 1) s
  | _ => []

end Taproom.Json
