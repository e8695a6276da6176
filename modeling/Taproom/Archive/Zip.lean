import Taproom.Archive.Bytes
import Taproom.Text.Cut

/-!
Zip archives: files one after the other, then a directory of them, then its place.
-/

namespace Taproom.Zip

open Archive (Bytes Fault little ofLittle slice ofText toText crc32)

/-- An entry; one without a mode was made where files have none. The bits of a mode above the
permissions tell the type of the entry. -/
structure Entry where
  name : String
  mode : Option Nat := none
  content : Bytes := []
  deriving DecidableEq, Repr

def dirType : Nat := 0o040000

def isDirMode (mode : Nat) : Bool := mode / 0o10000 % 16 = dirType / 0o10000

/-- A name that ends in a slash is that of a directory, whatever its mode. -/
def Entry.isDir (e : Entry) : Bool := endsWith e.name "/" || e.mode.any isDirMode

def Entry.permissions (e : Entry) : Nat :=
  match e.mode with
  | some m => m % 512
  | none => if e.isDir then 0o777 else 0o666

def localMark : Bytes := [0x50, 0x4b, 0x03, 0x04]
def centralMark : Bytes := [0x50, 0x4b, 0x01, 0x02]
def endMark : Bytes := [0x50, 0x4b, 0x05, 0x06]

def descriptorMark : Bytes := [0x50, 0x4b, 0x07, 0x08]

def sizes (content : Bytes) : Bytes :=
  little 4 (crc32 content) ++ little 4 content.length ++ little 4 content.length

/-- Whether checksum and sizes come after the content. A name with a slash at its end has none. -/
def Entry.isDescribed (e : Entry) : Bool := !endsWith e.name "/"

def Entry.flags (e : Entry) : Nat :=
  (if e.isDescribed then 0x8 else 0) + (if (ofText e.name).all (· < 0x80) then 0 else 0x800)

def Entry.stored (e : Entry) : Bytes := if e.isDescribed then e.content else []

def localPart (e : Entry) : Bytes :=
  localMark ++ little 2 20 ++ little 2 e.flags ++ little 2 0 ++ little 4 0 ++ little 12 0 ++
    little 2 (ofText e.name).length ++ little 2 0 ++ ofText e.name ++ e.stored ++
    (if e.isDescribed then descriptorMark ++ sizes e.stored else [])

def centralPart (e : Entry) (offset : Nat) : Bytes :=
  let (maker, attributes) := match e.mode with
    | some m =>
      (3 * 256 + 20, m * 65536 + (if isDirMode m then 0x10 else 0) + (if m / 0o200 % 2 = 0 then 1 else 0))
    | none => (20, 0)
  centralMark ++ little 2 maker ++ little 2 20 ++ little 2 e.flags ++ little 2 0 ++ little 4 0 ++
    sizes e.stored ++ little 2 (ofText e.name).length ++ little 2 0 ++ little 2 0 ++ little 2 0 ++
    little 2 0 ++ little 4 attributes ++ little 4 offset ++ ofText e.name

def directory (offset : Nat) : List Entry → Bytes
  | [] => []
  | e :: rest => centralPart e offset ++ directory (offset + (localPart e).length) rest

def encode (entries : List Entry) : Bytes :=
  let files := entries.flatMap localPart
  let dir := directory 0 entries
  files ++ dir ++ endMark ++ little 2 0 ++ little 2 0 ++ little 2 entries.length ++
    little 2 entries.length ++ little 4 dir.length ++ little 4 files.length ++ little 2 0

def contentAt (bs : Bytes) (offset size : Nat) : Option Bytes :=
  let part := bs.drop offset
  if part.take 4 ≠ localMark then none
  else
    let skip := 30 + ofLittle (slice part 26 2) + ofLittle (slice part 28 2)
    let content := slice part skip size
    if content.length = size then some content else none

def readDirectory (whole : Bytes) (count : Nat) (bs : Bytes) : Except Fault (List Entry) :=
  match count with
  | 0 => .ok []
  | count + 1 =>
    if bs.length < 46 || bs.take 4 ≠ centralMark then .error .zip
    else
      let nameSize := ofLittle (slice bs 28 2)
      let size := ofLittle (slice bs 20 4)
      let offset := ofLittle (slice bs 42 4)
      let maker := ofLittle (slice bs 5 1)
      let attributes := ofLittle (slice bs 38 4)
      let more := ofLittle (slice bs 30 2) + ofLittle (slice bs 32 2)
      if ofLittle (slice bs 10 2) ≠ 0 then .error .zipMethod
      else
        match contentAt whole offset size with
        | none => .error .zip
        | some content => do
          let rest ← readDirectory whole count (bs.drop (46 + nameSize + more))
          return {
            name := toText (slice bs 46 nameSize), content
            mode := if maker = 3 then some (attributes / 65536) else none } :: rest

def endRecord? (bs : Bytes) : Option Bytes :=
  let tail := bs.drop (bs.length - (22 + 65535))
  (List.range (tail.length - 21)).reverse.findSome? fun i =>
    if slice tail i 4 = endMark then some (tail.drop i) else none

def decode (bs : Bytes) : Except Fault (List Entry) :=
  if bs.length < 22 then .error .zip
  else
    match endRecord? bs with
    | none => .error .zip
    | some e => readDirectory bs (ofLittle (slice e 10 2)) (bs.drop (ofLittle (slice e 16 4)))

end Taproom.Zip
