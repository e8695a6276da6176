import Taproom.Xml

/-!
Property lists. Of values that no text can be made of only the kind is kept.
-/

namespace Taproom

inductive Plist where
  | text (s : String)
  | dict (members : List (String × Plist))
  | array (items : List Plist)
  | boolean (b : Bool)
  | integer (n : Int)
  | real
  | date
  | data
  | uid
  /-- No value, which fits everything and changes nothing. -/
  | nothing
  deriving Inhabited

namespace Plist

inductive Form where
  | markup
  | plain
  | binary
  deriving DecidableEq, Repr

def Form.name : Form → String
  | markup => "XML"
  | plain => "text"
  | binary => "binary"

inductive Fault where
  | unreadable (form : Form) (problem : String)
  | misfit (kind wanted : String)
  deriving DecidableEq, Repr

def Fault.message : Fault → String
  | unreadable form problem => s!"plist: error parsing {form.name} property list: {problem}"
  | misfit kind wanted =>
    s!"plist: type mismatch: tried to decode plist type `{kind}' into value of type `{wanted}'"

def kind : Plist → String
  | text _ => "string"
  | dict _ => "dictionary"
  | array _ => "array"
  | boolean _ => "boolean"
  | integer _ => "integer"
  | real => "real"
  | date => "date"
  | data => "data"
  | uid => "UID"
  | nothing => ""

/-- A dictionary that only says which object is meant stands for that object. In a form that knows
no numbers a text of digits says so as well. -/
def ofMembers (lax : Bool) (members : List (String × Plist)) : Plist :=
  match members with
  | [("CF$UID", .integer _)] => .uid
  | [("CF$UID", .text s)] =>
    if lax && !s.isEmpty && s.all Text.isDigit &&
        Text.digitsValue s.toList < Nat.pow 2 64 then .uid
    else .dict members
  | _ => .dict members

def line (depth : Nat) (s : String) : String :=
  String.ofList (List.replicate depth '\t') ++ s ++ "\n"

mutual

/-- The lines of a value. Nothing but texts, flags and collections is ever written. -/
def lines (depth : Nat) : Plist → String
  | .text s => line depth (Xml.element "string" s)
  | .boolean true => line depth "<true/>"
  | .boolean false => line depth "<false/>"
  | .dict members => line depth "<dict>" ++ memberLines (depth + 1) members ++ line depth "</dict>"
  | .array items => line depth "<array>" ++ itemLines (depth + 1) items ++ line depth "</array>"
  | _ => ""

def memberLines (depth : Nat) : List (String × Plist) → String
  | [] => ""
  | (k, v) :: rest =>
    line depth (Xml.element "key" k) ++ lines depth v ++ memberLines depth rest

def itemLines (depth : Nat) : List Plist → String
  | [] => ""
  | v :: rest => lines depth v ++ itemLines depth rest

end

def head : String :=
  "<?xml version=\"1.0\" encoding=\"UTF-8\"?>\n" ++
  "<!DOCTYPE plist PUBLIC \"-//Apple//DTD PLIST 1.0//EN\" " ++
  "\"http://www.apple.com/DTDs/PropertyList-1.0.dtd\">\n"

def render (p : Plist) : String :=
  head ++ "<plist version=\"1.0\">\n" ++ lines 1 p ++ "</plist>"

end Plist

end Taproom
