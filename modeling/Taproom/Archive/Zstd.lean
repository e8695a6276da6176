import Taproom.Archive.Bytes

/-!
Streams in the Zstandard format, with their content in blocks that are stored as they are.
-/

namespace Taproom.Zstd

open Archive (Bytes Fault Stream little ofLittle)

def magic : Bytes := [0x28, 0xb5, 0x2f, 0xfd]

def maxBlock : Nat := 131072

def blocks (fuel : Nat) (bs : Bytes) : Bytes :=
  match fuel with
  | 0 => []
  | fuel + 1 =>
    let now := bs.take maxBlock
    let rest := bs.drop maxBlock
    little 3 (8 * now.length + if rest.isEmpty then 1 else 0) ++ now ++
      if rest.isEmpty then [] else blocks fuel rest

def encode (bs : Bytes) : Bytes :=
  magic ++ [0xa0] ++ little 4 bs.length ++ blocks (bs.length / maxBlock + 1) bs

def readBlocks (fuel : Nat) (bs acc : Bytes) : Stream :=
  match fuel with
  | 0 => ⟨acc, some .ended⟩
  | fuel + 1 =>
    if bs.length < 3 then ⟨acc, some .ended⟩
    else
      let head := ofLittle (bs.take 3)
      let size := head / 8
      let rest := bs.drop 3
      if head / 2 % 4 = 0 then
        let body := rest.take size
        if body.length < size then ⟨acc ++ body, some .ended⟩
        else if head % 2 = 1 then ⟨acc ++ body, none⟩
        else readBlocks fuel (rest.drop size) (acc ++ body)
      else
        match rest with
        | b :: rest =>
          let body := List.replicate size b
          if head % 2 = 1 then ⟨acc ++ body, none⟩ else readBlocks fuel rest (acc ++ body)
        | [] => ⟨acc, some .ended⟩

def decode (bs : Bytes) : Stream :=
  if bs.isEmpty then ⟨[], none⟩
  else if bs.length < magic.length then ⟨[], some .ended⟩
  else if bs.take 4 ≠ magic then ⟨[], some .zstdMagic⟩
  else if bs.length < 9 then ⟨[], some .ended⟩
  else readBlocks (bs.length + 1) (bs.drop 9) []

end Taproom.Zstd
