import Taproom.Archive.Bytes

/-!
Streams in the gzip format, with their content in blocks that are stored as they are.
-/

namespace Taproom.Gzip

open Archive (Bytes Fault Stream little ofLittle slice)

def header : Bytes := [0x1f, 0x8b, 0x08, 0, 0, 0, 0, 0, 0, 0xff]

def maxBlock : Nat := 65535

def blocks (fuel : Nat) (bs : Bytes) : Bytes :=
  match fuel with
  | 0 => []
  | fuel + 1 =>
    let now := bs.take maxBlock
    let rest := bs.drop maxBlock
    let last : UInt8 := if rest.isEmpty then 1 else 0
    last :: little 2 now.length ++ little 2 (maxBlock - now.length) ++ now ++
      if rest.isEmpty then [] else blocks fuel rest

def encode (bs : Bytes) : Bytes :=
  header ++ blocks (bs.length / maxBlock + 1) bs ++ little 4 (Archive.crc32 bs) ++
    little 4 bs.length

def readBlocks (fuel : Nat) (offset : Nat) (bs acc : Bytes) : Stream × Bytes :=
  match fuel with
  | 0 => (⟨acc, some .ended⟩, [])
  | fuel + 1 =>
    match bs with
    | [] => (⟨acc, some .ended⟩, [])
    | mark :: rest =>
      if mark > 1 then (⟨acc, some (.flate offset)⟩, [])
      else if rest.length < 4 then (⟨acc, some .ended⟩, [])
      else
        let size := ofLittle (rest.take 2)
        let body := (rest.drop 4).take size
        if ofLittle (slice rest 2 2) ≠ maxBlock - size then (⟨acc, some (.flate offset)⟩, [])
        else if body.length < size then (⟨acc ++ body, some .ended⟩, [])
        else if mark = 1 then (⟨acc ++ body, none⟩, rest.drop (4 + size))
        else readBlocks fuel (offset + 5 + size) (rest.drop (4 + size)) (acc ++ body)

def decode (bs : Bytes) : Except Fault Stream :=
  if bs.isEmpty then .error .nothing
  else if bs.length < header.length then .error .ended
  else if bs.take 3 ≠ header.take 3 then .error .gzipHeader
  else
    let (s, rest) := readBlocks (bs.length + 1) header.length (bs.drop header.length) []
    match s.fault with
    | some _ => .ok s
    | none =>
      if rest.length < 8 then .ok { s with fault := some .ended }
      else if ofLittle (rest.take 4) ≠ Archive.crc32 s.bytes then
        .ok { s with fault := some .gzipChecksum }
      else .ok s

end Taproom.Gzip
