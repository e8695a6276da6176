import Taproom.Archive.Gzip
import Taproom.Archive.Tar
import Taproom.Archive.Zstd
import Taproom.Digest.Sha256
import Mathlib

/-!
What is packed comes out again: numbers on bytes, and streams that are compressed. What checksums look
like.
-/

namespace Taproom

/-! ### Bytes -/

namespace Archive

theorem toList_loop (bs : ByteArray) (i : Nat) (acc : List UInt8) :
    ByteArray.toList.loop bs i acc = acc.reverse ++ bs.data.toList.drop i := by
  induction left : bs.size - i generalizing i acc with
  | zero =>
    rw [ByteArray.toList.loop.eq_1, if_neg (by omega), List.drop_eq_nil_of_le, List.append_nil]
    exact Nat.le_of_sub_eq_zero left
  | succ n ih =>
    have inside : i < bs.size := by omega
    have byte : bs.get! i = bs.data.toList[i] := by simp [ByteArray.get!, inside]
    rw [ByteArray.toList.loop.eq_1, if_pos inside, ih (i + 1) _ (by omega),
      List.drop_eq_getElem_cons inside, byte]
    simp

theorem toList_eq_data (bs : ByteArray) : bs.toList = bs.data.toList := by
  rw [ByteArray.toList, toList_loop]
  rfl

theorem toList_toArray (l : List UInt8) : ByteArray.toList ⟨l.toArray⟩ = l := toList_eq_data _

theorem length_little (width n : Nat) : (little width n).length = width := by simp [little]

theorem little_succ (width n : Nat) : little (width + 1) n = n.toUInt8 :: little width (n / 256) := by
  rw [little, List.range_succ_eq_map, List.map_cons, List.map_map, little]
  congr 1
  · simp
  · refine List.map_congr_left fun i _ => ?_
    simp only [Function.comp_apply, Nat.div_div_eq_div_mul, Nat.pow_eq, Nat.pow_succ']

theorem ofLittle_little {width n : Nat} (fits : n < 256 ^ width) :
    ofLittle (little width n) = n := by
  induction width generalizing n with
  | zero =>
    rw [Nat.pow_zero, Nat.lt_one_iff] at fits
    rw [fits]
    rfl
  | succ width ih =>
    rw [Nat.pow_succ] at fits
    rw [little_succ, ofLittle, ih (by omega)]
    simp only [Nat.toUInt8, UInt8.toNat_ofNat']
    omega

end Archive

/-! ### Compressed streams -/

namespace Gzip

open Archive (Bytes Stream little ofLittle slice length_little ofLittle_little)

def blockHead (size : Nat) (last : Bool) : Bytes :=
  (if last then 1 else 0) :: (little 2 size ++ little 2 (maxBlock - size))

theorem readBlocks_block {size steps offset : Nat} {last : Bool} {now rest : Bytes} (acc : Bytes)
    (length : now.length = size) (fits : size ≤ maxBlock) :
    readBlocks (steps + 1) offset (blockHead size last ++ (now ++ rest)) acc =
      if last then (⟨acc ++ now, none⟩, rest)
      else readBlocks steps (offset + 5 + size) rest (acc ++ now) := by
  have bound : maxBlock < 256 ^ 2 := by decide
  have two : (little 2 size).length = 2 := length_little _ _
  have two' : (little 2 (maxBlock - size)).length = 2 := length_little _ _
  have front : (little 2 size ++ little 2 (maxBlock - size)).length = 4 := by
    rw [List.length_append, two, two']
  have split : blockHead size last ++ (now ++ rest) = (if last then 1 else 0) ::
      ((little 2 size ++ little 2 (maxBlock - size)) ++ (now ++ rest)) := rfl
  have taken : ofLittle (((little 2 size ++ little 2 (maxBlock - size)) ++ (now ++ rest)).take 2) = size := by
    rw [List.append_assoc, List.take_left' two, ofLittle_little (by omega)]
  have complement : ofLittle (slice ((little 2 size ++ little 2 (maxBlock - size)) ++ (now ++ rest)) 2 2) =
      maxBlock - size := by
    rw [slice, List.append_assoc, List.drop_left' two, List.take_left' two', ofLittle_little (by omega)]
  have body : (((little 2 size ++ little 2 (maxBlock - size)) ++ (now ++ rest)).drop 4).take size = now := by
    rw [List.drop_left' front, List.take_left' length]
  have behind : ((little 2 size ++ little 2 (maxBlock - size)) ++ (now ++ rest)).drop (4 + size) = rest := by
    rw [← List.drop_drop, List.drop_left' front, List.drop_left' length]
  have enough : ¬ ((little 2 size ++ little 2 (maxBlock - size)) ++ (now ++ rest)).length < 4 := by
    rw [List.length_append, front]
    omega
  have known : ¬ (if last then 1 else 0 : UInt8) > 1 := by cases last <;> decide
  have marked : (if last then 1 else 0 : UInt8) = 1 ↔ last = true := by cases last <;> decide
  rw [split, readBlocks, if_neg known, if_neg enough]
  simp only [taken, complement, body, behind, length, marked, Nat.lt_irrefl, ne_eq, not_true_eq_false, if_false]

theorem blocks_succ (fuel : Nat) (bs : Bytes) :
    blocks (fuel + 1) bs = blockHead (bs.take maxBlock).length (bs.drop maxBlock).isEmpty ++
      (bs.take maxBlock ++ if (bs.drop maxBlock).isEmpty then [] else blocks fuel (bs.drop maxBlock)) := by
  rw [blocks, blockHead]
  simp only [List.append_assoc, List.cons_append]

theorem readBlocks_blocks {fuel steps offset : Nat} {bs : Bytes} (rest acc : Bytes)
    (enough : bs.length < fuel * maxBlock) (more : (blocks fuel bs).length < steps) :
    readBlocks steps offset (blocks fuel bs ++ rest) acc = (⟨acc ++ bs, none⟩, rest) := by
  induction fuel generalizing steps offset bs acc with
  | zero => omega
  | succ fuel ih =>
    obtain _ | steps := steps
    · omega
    have short : (bs.take maxBlock).length ≤ maxBlock := List.length_take_le _ _
    rw [blocks_succ] at more ⊢
    rw [List.append_assoc, List.append_assoc, readBlocks_block acc rfl short]
    by_cases last : (bs.drop maxBlock).isEmpty
    · have whole : bs.take maxBlock = bs := by
        rw [List.isEmpty_iff, List.drop_eq_nil_iff] at last
        exact List.take_of_length_le last
      rw [if_pos last, if_pos last, whole, List.nil_append]
    · rw [if_neg last, if_neg last, ih, List.append_assoc, List.take_append_drop]
      · rw [List.isEmpty_iff, List.drop_eq_nil_iff] at last
        rw [List.length_drop]
        rw [Nat.add_mul] at enough
        omega
      · rw [if_neg last, List.length_append, List.length_append] at more
        have long : 0 < (blockHead (bs.take maxBlock).length (bs.drop maxBlock).isEmpty).length :=
          Nat.succ_pos _
        omega

theorem decode_encode (bs : Bytes) : decode (encode bs) = .ok ⟨bs, none⟩ := by
  have four : ∀ n, (little 4 n).length = 4 := length_little 4
  have ten : header.length = 10 := rfl
  have start : encode bs = header ++ (blocks (bs.length / maxBlock + 1) bs ++
      (little 4 (Archive.crc32 bs) ++ little 4 bs.length)) := by
    simp only [encode, List.append_assoc]
  have long : (encode bs).length = 10 + ((blocks (bs.length / maxBlock + 1) bs).length + 8) := by
    rw [start, List.length_append, List.length_append, List.length_append, four, four, ten]
  have some : ¬ (encode bs).isEmpty := by
    rw [List.isEmpty_iff_length_eq_zero]
    omega
  have marked : (encode bs).take 3 = header.take 3 := by rw [start]; rfl
  have behind : (encode bs).drop header.length = blocks (bs.length / maxBlock + 1) bs ++
      (little 4 (Archive.crc32 bs) ++ little 4 bs.length) := by rw [start, List.drop_left]
  have enough : bs.length < (bs.length / maxBlock + 1) * maxBlock := by
    rw [Nat.mul_comm]
    exact Nat.lt_mul_div_succ _ (by decide)
  have checked : ofLittle ((little 4 (Archive.crc32 bs) ++ little 4 bs.length).take 4) = Archive.crc32 bs := by
    rw [List.take_left' (four _)]
    exact ofLittle_little (UInt32.toNat_lt _)
  have eight : ¬ (little 4 (Archive.crc32 bs) ++ little 4 bs.length).length < 8 := by
    rw [List.length_append, four, four]
    omega
  rw [decode, if_neg some, if_neg (by omega), if_neg (by rw [marked]; simp), behind,
    readBlocks_blocks _ [] enough (by omega), List.nil_append]
  simp only [checked, eight, if_false, ne_eq, not_true_eq_false]

end Gzip

/-! ### Checksums -/

namespace Sha256

theorem length_hex (m : ByteArray) : (hex m).length = 64 := by
  simp [hex, hexWord, Words.toList]

theorem hex_ne_empty (m : ByteArray) : hex m ≠ "" := by
  intro none
  have length := length_hex m
  rw [none] at length
  cases length

end Sha256

end Taproom
