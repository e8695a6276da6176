import Taproom.Dict
import Taproom.Json.Written
import Taproom.Text.Number

/-!
Objects that are read leniently: a member that is missing, or that is of another sort than the one
asked for, counts as empty.
-/

namespace Taproom.Json

def textOf : Json → String
  | .str s => s
  | _ => ""

def intOf : Json → Int
  | .num d => (Text.readInt? d.toList).getD 0
  | _ => 0

def itemsOf : Json → List Json
  | .arr l => l
  | _ => []

def membersOf : Json → List (String × Json)
  | .obj l => l
  | _ => []

def textsOf (v : Json) : List String := v.itemsOf.map textOf

def ofWritten (raw : String) : Json := (Json.parse raw).toOption.getD .null

structure Fields where
  members : List (String × String)

namespace Fields

def ofText (s : String) : Fields := ⟨writtenMembers s⟩

def raw? (i : Fields) (key : String) : Option String :=
  (i.members.reverse.find? (·.1 = key)).map (·.2)

def has (i : Fields) (key : String) : Bool := (i.raw? key).isSome

def value (i : Fields) (key : String) : Json := (i.raw? key).elim .null ofWritten

def text (i : Fields) (key : String) : String := (i.value key).textOf

def int (i : Fields) (key : String) : Int := (i.value key).intOf

def bool (i : Fields) (key : String) : Bool := (i.raw? key).any (· == "true")

def texts (i : Fields) (key : String) : List String := (i.value key).textsOf

def dict (i : Fields) (key : String) : Dict String String :=
  .ofList ((i.value key).membersOf.map fun (k, v) => (k, v.textOf))

def counts (i : Fields) (key : String) : Dict String Int :=
  .ofList ((i.value key).membersOf.map fun (k, v) => (k, v.intOf))

def items (i : Fields) (key : String) : List String := (i.raw? key).elim [] writtenItems

def object (i : Fields) (key : String) : List (String × String) :=
  (i.raw? key).elim [] writtenMembers

def sub (i : Fields) (key : String) : Fields := ⟨i.object key⟩

def subs (i : Fields) (key : String) : List Fields := (i.items key).map ofText

def parts (i : Fields) (key : String) : List (String × Fields) :=
  (i.object key).map fun (k, raw) => (k, ofText raw)

end Fields

end Taproom.Json
