import Taproom.Plist.Binary
import Taproom.Plist.Plain

/-!
Reading property lists in any of their forms. What is no XML is taken for plain text.
-/

namespace Taproom.Plist

/-- The characters of plain text, whose first bytes tell how it is encoded. -/
def plainChars (bytes : List UInt8) : Except String (List Char) :=
  let wide (bytes : List UInt8) : Except String (List Char) :=
    if bytes.length % 2 = 1 then .error "truncated utf16"
    else .ok (Binary.Document.joinUnits (Binary.Document.wideText bytes))
  let swapped : List UInt8 → List UInt8 := swap
  match bytes with
  | 0xef :: 0xbb :: 0xbf :: rest => .ok (Utf8.decode rest)
  | 0xfe :: 0xff :: rest => wide rest
  | 0xff :: 0xfe :: rest => if rest.length % 2 = 1 then wide rest else wide (swapped rest)
  | a :: b :: _ =>
    if a = 0 && b ≠ 0 then wide bytes
    else if a ≠ 0 && b = 0 then (if bytes.length % 2 = 1 then wide bytes else wide (swapped bytes))
    else .ok (Utf8.decode bytes)
  | _ => .ok (Utf8.decode bytes)
where
  swap : List UInt8 → List UInt8
    | a :: b :: rest => b :: a :: swap rest
    | rest => rest

def parse (bytes : List UInt8) : Except Fault Plist :=
  if Binary.isMarked bytes then (Binary.read bytes).mapError (.unreadable .binary)
  else
    match Markup.read (Utf8.decode bytes) with
    | .ok p => .ok p
    | .error (.problem reason) => .error (.unreadable .markup reason)
    | .error .foreign => (plainChars bytes >>= Plain.read).mapError (.unreadable .plain)

end Taproom.Plist
