import Taproom.Plist
import Taproom.Text.Utf8

/-!
Property lists written as bytes: objects, a table that tells where each of them starts, and a
trailer that tells where the table is.
-/

namespace Taproom.Plist.Binary

/-- What the last bytes tell: how wide offsets and references are, how many objects there are, which
of them is the value, and where the table starts. -/
structure Trailer where
  offsetWidth : Nat
  referenceWidth : Nat
  count : Nat
  top : Nat
  table : Nat

structure Document where
  bytes : Array UInt8
  trailer : Trailer

def hex (n : Nat) : String := "0x" ++ String.ofList (Nat.toDigits 16 n)

def byteAt (b : Array UInt8) (i : Nat) : Nat := (b[i]?.getD 0).toNat

def number (b : Array UInt8) (start width : Nat) : Nat :=
  (List.range width).foldl (fun n i => 256 * n + byteAt b (start + i)) 0

def word : Nat := Nat.pow 2 64

def check (limit : Nat) (t : Trailer) : Except String Unit := do
  if t.table ≥ limit then
    throw s!"offset table beyond beginning of trailer ({hex t.table}, trailer@{hex limit})"
  if t.table < 9 then throw s!"offset table begins inside header ({hex t.table})"
  let size := t.count * t.offsetWidth % word
  if limit > (size + t.table) % word then throw "garbage between offset table and trailer"
  if (t.table + size) % word > limit then
    throw "offset table isn't long enough to address every object"
  let shift := 8 * t.referenceWidth % 256
  let references := if shift < 64 then Nat.pow 2 shift else 0
  if t.count > references then
    throw (s!"more objects ({t.count}) than object ref size ({t.referenceWidth} bytes) can support")
  if t.offsetWidth < 8 && Nat.pow 2 (8 * t.offsetWidth) ≤ t.table then
    throw "offset size isn't big enough to address entire file"
  if t.top ≥ t.count then throw s!"top object #{t.top} is out of range (only {t.count} exist)"

namespace Document

/-- A number of a width that numbers may have; of a wide one only the lower half counts. -/
def integer (d : Document) (start width : Nat) : Except String Nat :=
  if [1, 2, 4, 8, 16].contains width then .ok (number d.bytes start width % word)
  else .error "illegal integer size"

def extent (d : Document) (start : Nat) : Except String (Nat × Nat) := do
  let low := byteAt d.bytes start % 16
  if low = 15 then
    let width := Nat.pow 2 (byteAt d.bytes (start + 1) % 16)
    return (← d.integer (start + 2) width, start + 2 + width)
  else return (low, start + 1)

def content (d : Document) (what : String) (unit start : Nat) : Except String (List UInt8) := do
  let (count, first) ← d.extent start
  let size := count * unit % word
  if (first + size) % word > d.trailer.table then
    let room := (d.trailer.table + word - first) % word
    throw s!"{what}@{hex start} too long ({size} bytes, max is {room})"
  return (d.bytes.extract first (first + size)).toList

def wideText : List UInt8 → List Nat
  | a :: b :: rest => (256 * a.toNat + b.toNat) :: wideText rest
  | _ => []

def joinUnits : List Nat → List Char
  | [] => []
  | [n] => [if 0xd800 ≤ n && n < 0xe000 then '�' else Char.ofNat n]
  | n :: m :: rest =>
    if 0xd800 ≤ n && n < 0xdc00 && 0xdc00 ≤ m && m < 0xe000 then
      Char.ofNat (0x10000 + (n - 0xd800) * 0x400 + (m - 0xdc00)) :: joinUnits rest
    else (if 0xd800 ≤ n && n < 0xe000 then '�' else Char.ofNat n) :: joinUnits (m :: rest)

mutual

/-- Reads an object by its number. `within` are the places of the collections it is in, the
outermost first. -/
def object (d : Document) (fuel : Nat) (within : List Nat) (index : Nat) : Except String Plist :=
  match fuel with
  | 0 => .error "self-referential collection"
  | fuel + 1 => do
    let t := d.trailer
    if index ≥ t.count then throw s!"invalid object#{index} (max {t.count})"
    let start ← d.integer (t.table + index * t.offsetWidth) t.offsetWidth
    if start > t.table - 1 then
      throw s!"object#{index} starts beyond beginning of object table ({hex start}, table@{hex t.table})"
    value d fuel within start

def value (d : Document) (fuel : Nat) (within : List Nat) (start : Nat) : Except String Plist :=
  match fuel with
  | 0 => .error "self-referential collection"
  | fuel + 1 => do
    let tag := byteAt d.bytes start
    let low := tag % 16
    match tag / 16 with
    | 0 => if tag = 8 || tag = 9 then return .boolean (tag = 9) else unknown tag
    | 1 => return .integer (← d.integer (start + 1) (Nat.pow 2 low))
    | 2 => if low = 2 || low = 3 then return .real else throw "illegal float size"
    | 3 => return .date
    | 4 =>
      let _ ← d.content "data" 1 start
      return .data
    | 5 => return .text (Utf8.text (← d.content "ascii string" 1 start))
    | 6 => return .text (String.ofList (joinUnits (wideText (← d.content "utf16 string" 2 start))))
    | 8 =>
      let _ ← d.integer (start + 1) (low + 1)
      return .uid
    | 10 =>
      let within ← enter
      let (count, first) ← d.extent start
      return .array (← references d fuel within first count)
    | 13 =>
      let within ← enter
      let (count, first) ← d.extent start
      let all ← references d fuel within first (2 * count)
      let keys ← (all.take count).zipIdx.mapM fun (k, i) =>
        match k with
        | .text s => Except.ok s
        | _ => .error s!"dictionary contains non-string key at index {i}"
      return .dict (keys.zip (all.drop count))
    | _ => unknown tag
where
  unknown (tag : Nat) : Except String Plist :=
    .error s!"unexpected atom 0x{String.ofList (Text.hex 2 tag)} at offset {hex start}"
  enter : Except String (List Nat) :=
    if within.contains start then
      let path := String.join (within.map fun p => hex p ++ " > ")
      .error s!"self-referential collection@{hex start} ({path}{hex start}) cannot be deserialized"
    else .ok (within ++ [start])

def references (d : Document) (fuel : Nat) (within : List Nat) (first count : Nat) :
    Except String (List Plist) :=
  match fuel with
  | 0 => .error "self-referential collection"
  | fuel + 1 => do
    let t := d.trailer
    if first + count * t.referenceWidth > t.table then
      throw (s!"list@{hex first} length ({count}) puts its end beyond the offset table at " ++
        hex t.table)
    (List.range count).mapM fun i => do
      let index ← d.integer (first + i * t.referenceWidth) t.referenceWidth
      object d fuel within index

end

end Document

def isMarked (bytes : List UInt8) : Bool := bytes.take 6 = "bplist".toUTF8.data.toList

def read (content : List UInt8) : Except String Plist := do
  let bytes := content.toArray
  if bytes.size < 40 then throw "not enough data"
  let digit (i : Nat) : Nat := (byteAt bytes i + 208) % 256
  let version := (digit 6 * 10 + digit 7) % 256
  if version > 1 then throw s!"unexpected version {version}"
  let limit := bytes.size - 32
  let t : Trailer :=
    { offsetWidth := byteAt bytes (limit + 6), referenceWidth := byteAt bytes (limit + 7)
      count := number bytes (limit + 8) 8, top := number bytes (limit + 16) 8
      table := number bytes (limit + 24) 8 }
  check limit t
  Document.object ⟨bytes, t⟩ (4 * bytes.size + 4) [] t.top

end Taproom.Plist.Binary
