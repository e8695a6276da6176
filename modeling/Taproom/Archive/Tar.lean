import Taproom.Archive.Bytes
import Taproom.Text.Cut

/-!
Tape archives: blocks of headers, each followed by the blocks of what it announces. Names that do
not fit into a header come in a record of their own before it.
-/

namespace Taproom.Tar

open Archive (Bytes Fault Stream slice ofText toText)

inductive Kind where
  | file
  | hardLink
  | symlink
  | dir
  | note
  | other (flag : UInt8)
  deriving DecidableEq, Repr

def Kind.flag : Kind → UInt8
  | file => 0x30
  | hardLink => 0x31
  | symlink => 0x32
  | dir => 0x35
  | note => 0x67
  | other flag => flag

def Kind.ofFlag (b : UInt8) : Kind :=
  if b = 0x30 then .file
  else if b = 0x31 then .hardLink
  else if b = 0x32 then .symlink
  else if b = 0x35 then .dir
  else if b = 0x67 then .note
  else .other b

def Kind.hasContent : Kind → Bool
  | file | note => true
  | hardLink | symlink | dir => false
  | other flag => !(0x33 ≤ flag && flag ≤ 0x36)

structure Entry where
  name : String
  kind : Kind := .file
  mode : Nat := 0
  content : Bytes := []
  link : String := ""
  deriving DecidableEq, Repr

def blockSize : Nat := 512

def gap (n : Nat) : Nat := (blockSize - n % blockSize) % blockSize

def zeros (n : Nat) : Bytes := List.replicate n 0

/-! ### Writing -/

def textField (width : Nat) (bs : Bytes) : Bytes :=
  bs.take width ++ zeros (width - bs.length)

/-- A number on `width` bytes: octal digits and a zero, or raw when it has too many digits. -/
def numberField (width n : Nat) : Bytes :=
  let digits := ofText (String.ofList (Nat.toDigits 8 n))
  if digits.length < width then
    List.replicate (width - 1 - digits.length) 0x30 ++ digits ++ [0]
  else 0x80 :: (Archive.little (width - 1) n).reverse

def sum (bs : Bytes) : Nat := bs.foldl (fun n b => n + b.toNat) 0

def header (name link : Bytes) (flag : UInt8) (mode size : Nat) : Bytes :=
  let before := textField 100 name ++ numberField 8 mode ++ numberField 8 0 ++ numberField 8 0 ++
    numberField 12 size ++ numberField 12 0
  let after := flag :: textField 100 link ++ ofText "ustar\x0000" ++ zeros 32 ++ zeros 32 ++
    numberField 8 0 ++ numberField 8 0 ++ zeros 155 ++ zeros 12
  let check := sum before + 8 * 0x20 + sum after
  let digits := ofText (String.ofList (Nat.toDigits 8 check))
  before ++ List.replicate (6 - digits.length) 0x30 ++ digits ++ [0, 0x20] ++ after

def padded (content : Bytes) : Bytes := content ++ zeros (gap content.length)

/-- A record of a name that does not fit: its own length, the key and the value. -/
def record (key : String) (value : Bytes) : Bytes :=
  let body := [0x20] ++ ofText key ++ [0x3d] ++ value ++ [0x0a]
  let size (digits : Nat) := (toString (body.length + digits)).length
  let first := size 1
  let count := if size first = first then first else size (size first)
  ofText (toString (body.length + count)) ++ body

def fits (name : Bytes) : Bool := name.length ≤ 100 && name.all fun b => b < 0x80 && b ≠ 0

def ascii (name : Bytes) : Bytes := name.filter (· < 0x80)

def encodeEntry (e : Entry) : Bytes :=
  let name := ofText e.name
  let link := ofText e.link
  let records := (if fits name then [] else record "path" name) ++
    (if fits link then [] else record "linkpath" link)
  let content := if e.kind.hasContent then e.content else []
  (if records.isEmpty then []
   else header (ofText "PaxHeaders.0/" ++ ascii name) [] 0x78 0 records.length ++ padded records) ++
  header (ascii name) (ascii link) e.kind.flag e.mode content.length ++ padded content

def encode (entries : List Entry) : Bytes := entries.flatMap encodeEntry ++ zeros (2 * blockSize)

/-! ### Reading -/

/-- What reading meets: an entry, an entry whose content breaks off, or a fault. -/
inductive Item where
  | entry (e : Entry)
  | cut (e : Entry) (f : Fault)
  | broken (f : Fault)
  deriving DecidableEq, Repr

def untilZero (bs : Bytes) : Bytes := bs.takeWhile (· ≠ 0)

def octal? (bs : Bytes) : Option Nat :=
  let digits := bs.filter fun b => b ≠ 0 && b ≠ 0x20
  if digits.all fun b => 0x30 ≤ b && b ≤ 0x37 then
    some (digits.foldl (fun n b => 8 * n + (b.toNat - 0x30)) 0)
  else none

/-- A number in a header, written raw or in octal digits. -/
def number? (bs : Bytes) : Option Nat :=
  match bs with
  | b :: rest => if b ≥ 0x80 then some (Archive.ofLittle rest.reverse) else octal? bs
  | [] => none

structure Names where
  path : Option String := none
  link : Option String := none

def readRecords (fuel : Nat) (bs : Bytes) (n : Names) : Option Names :=
  match fuel with
  | 0 => none
  | fuel + 1 =>
    if bs.isEmpty then some n
    else
      let digits := bs.takeWhile (· ≠ 0x20)
      match (toText digits).toNat? with
      | none => none
      | some size =>
        if size ≤ digits.length + 1 || bs.length < size then none
        else
          let body := (bs.take (size - 1)).drop (digits.length + 1)
          let key := toText (body.takeWhile (· ≠ 0x3d))
          let value := toText ((body.dropWhile (· ≠ 0x3d)).drop 1)
          let n := if key = "path" then { n with path := some value }
            else if key = "linkpath" then { n with link := some value } else n
          readRecords fuel (bs.drop size) n

def readHeader (block : Bytes) (names : Names) : Option (Entry × Nat) := do
  let check ← octal? (slice block 148 8)
  let total := sum (block.take 148) + 8 * 0x20 + sum (block.drop 156)
  if check ≠ total then none
  let mode ← number? (slice block 100 8)
  let size ← number? (slice block 124 12)
  let flag := block.getD 156 0
  let lead := untilZero (slice block 345 155)
  let name := toText (untilZero (block.take 100))
  let ustar := slice block 257 5 == ofText "ustar"
  let name := if ustar && lead ≠ [] then toText lead ++ "/" ++ name else name
  let name := names.path.getD name
  let link := names.link.getD (toText (untilZero (slice block 157 100)))
  let kind := if flag = 0 then (if endsWith name "/" then .dir else .file) else Kind.ofFlag flag
  let size := if kind.hasContent then size else 0
  some ({ name, kind, mode, link }, size)

def read (fuel : Nat) (s : Stream) (names : Names) : List Item :=
  match fuel with
  | 0 => []
  | fuel + 1 =>
    let bs := s.bytes
    let early : Fault := s.fault.getD .ended
    if bs.isEmpty then
      match s.fault with
      | some f => [.broken f]
      | none => []
    else if bs.length < blockSize then [.broken early]
    else
      let block := bs.take blockSize
      let rest := bs.drop blockSize
      if block.all (· = 0) then
        if rest.isEmpty then (s.fault.map Item.broken).toList
        else if rest.length < blockSize then [.broken early]
        else if (rest.take blockSize).all (· = 0) then []
        else [.broken .tarHeader]
      else
        match readHeader block names with
        | none => [.broken .tarHeader]
        | some (e, size) =>
          let content := rest.take size
          let next : Stream := { s with bytes := rest.drop (size + gap size) }
          if content.length < size then
            if e.kind.flag = 0x78 || e.kind = .note then [.broken early]
            else [.cut { e with content } early]
          else if e.kind.flag = 0x78 then
            match readRecords (content.length + 1) content names with
            | some names => read fuel next names
            | none => [.broken .tarHeader]
          else if e.kind = .note then
            .entry { name := e.name, kind := .note } :: read fuel next {}
          else if rest.length < size + gap size then
            .entry { e with content } :: (s.fault.map Item.broken).toList
          else .entry { e with content } :: read fuel next {}

def decode (s : Stream) : List Item := read (s.bytes.length / blockSize + 2) s {}

end Taproom.Tar
