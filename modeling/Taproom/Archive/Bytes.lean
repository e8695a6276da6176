/-!
Bytes, the numbers in them, and what can be wrong with an archive made of them.
-/

namespace Taproom.Archive

abbrev Bytes := List UInt8

inductive Fault where
  | ended
  | nothing
  | tarHeader
  | gzipHeader
  | gzipChecksum
  | zstdMagic
  | zip
  | zipMethod
  | flate (offset : Nat)
  | bzip2 (problem : String)
  deriving DecidableEq, Repr

def Fault.message : Fault → String
  | ended => "unexpected EOF"
  | nothing => "EOF"
  | tarHeader => "archive/tar: invalid tar header"
  | gzipHeader => "gzip: invalid header"
  | gzipChecksum => "gzip: invalid checksum"
  | zstdMagic => "invalid input: magic number mismatch"
  | zip => "zip: not a valid zip file"
  | zipMethod => "zip: unsupported compression algorithm"
  | flate offset => s!"flate: corrupt input before offset {offset}"
  | bzip2 problem => s!"bzip2 data invalid: {problem}"

/-- Bytes that come one after the other, until they end well or with a fault. -/
structure Stream where
  bytes : Bytes
  fault : Option Fault := none
  deriving Repr

/-- A number on `width` bytes, the lowest byte first. -/
def little (width n : Nat) : Bytes := (List.range width).map fun i => (n / Nat.pow 256 i).toUInt8

def ofLittle : Bytes → Nat
  | [] => 0
  | b :: rest => b.toNat + 256 * ofLittle rest

def ofText (s : String) : Bytes := s.toUTF8.data.toList

/-- The text of some bytes; those that are no text are replaced one by one. -/
def toText (bs : Bytes) : String :=
  match String.fromUTF8? ⟨bs.toArray⟩ with
  | some s => s
  | none => String.ofList (bs.map fun b => if b < 0x80 then Char.ofNat b.toNat else '�')

def slice (bs : Bytes) (start count : Nat) : Bytes := (bs.drop start).take count

def crcByte (crc : UInt32) (b : UInt8) : UInt32 :=
  (List.range 8).foldl
    (fun c _ => if c &&& 1 = 1 then (c >>> 1) ^^^ 0xedb88320 else c >>> 1) (crc ^^^ b.toUInt32)

def crc32 (bs : Bytes) : Nat := (bs.foldl crcByte 0xffffffff ^^^ 0xffffffff).toNat

end Taproom.Archive
