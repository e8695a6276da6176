/-!
The SHA-256 digest. A word is a number below `modulus`.
-/

namespace Taproom.Sha256

def modulus : Nat := 0x100000000

/-- The fractional parts of the cube roots of the first sixty-four primes. -/
def constants : List Nat := [
  0x428a2f98, 0x71374491, 0xb5c0fbcf, 0xe9b5dba5, 0x3956c25b, 0x59f111f1, 0x923f82a4, 0xab1c5ed5,
  0xd807aa98, 0x12835b01, 0x243185be, 0x550c7dc3, 0x72be5d74, 0x80deb1fe, 0x9bdc06a7, 0xc19bf174,
  0xe49b69c1, 0xefbe4786, 0x0fc19dc6, 0x240ca1cc, 0x2de92c6f, 0x4a7484aa, 0x5cb0a9dc, 0x76f988da,
  0x983e5152, 0xa831c66d, 0xb00327c8, 0xbf597fc7, 0xc6e00bf3, 0xd5a79147, 0x06ca6351, 0x14292967,
  0x27b70a85, 0x2e1b2138, 0x4d2c6dfc, 0x53380d13, 0x650a7354, 0x766a0abb, 0x81c2c92e, 0x92722c85,
  0xa2bfe8a1, 0xa81a664b, 0xc24b8b70, 0xc76c51a3, 0xd192e819, 0xd6990624, 0xf40e3585, 0x106aa070,
  0x19a4c116, 0x1e376c08, 0x2748774c, 0x34b0bcb5, 0x391c0cb3, 0x4ed8aa4a, 0x5b9cca4f, 0x682e6ff3,
  0x748f82ee, 0x78a5636f, 0x84c87814, 0x8cc70208, 0x90befffa, 0xa4506ceb, 0xbef9a3f7, 0xc67178f2]

structure Words where
  a : Nat := 0x6a09e667
  b : Nat := 0xbb67ae85
  c : Nat := 0x3c6ef372
  d : Nat := 0xa54ff53a
  e : Nat := 0x510e527f
  f : Nat := 0x9b05688c
  g : Nat := 0x1f83d9ab
  h : Nat := 0x5be0cd19

def Words.toList : Words → List Nat
  | ⟨a, b, c, d, e, f, g, h⟩ => [a, b, c, d, e, f, g, h]

def rotate (x n : Nat) : Nat := (x >>> n) ||| (x <<< (32 - n)) % modulus

def round : Words → Nat → Words
  | ⟨a, b, c, d, e, f, g, h⟩, word =>
    let big1 := rotate e 6 ^^^ rotate e 11 ^^^ rotate e 25
    let choice := (e &&& f) ^^^ ((modulus - 1 - e) &&& g)
    let t1 := h + big1 + choice + word
    let big0 := rotate a 2 ^^^ rotate a 13 ^^^ rotate a 22
    let majority := (a &&& b) ^^^ (a &&& c) ^^^ (b &&& c)
    ⟨(t1 + (big0 + majority)) % modulus, a, b, c, (d + t1) % modulus, e, f, g⟩

def wordsOf : List Nat → List Nat
  | a :: b :: c :: d :: rest => (a * 0x1000000 + b * 0x10000 + c * 0x100 + d) :: wordsOf rest
  | _ => []

/-- One more word of the schedule, whose newest word comes first. -/
def extend (w : List Nat) : List Nat :=
  let x := w.getD 14 0
  let y := w.getD 1 0
  let small0 := rotate x 7 ^^^ rotate x 18 ^^^ (x >>> 3)
  let small1 := rotate y 17 ^^^ rotate y 19 ^^^ (y >>> 10)
  (w.getD 15 0 + small0 + w.getD 6 0 + small1) % modulus :: w

/-- The words of the schedule, of which the first sixteen are those of the block. -/
def schedule (block : List Nat) : List Nat :=
  (Nat.repeat extend 48 (wordsOf block).reverse).reverse

def compress (s : Words) (block : List Nat) : Words :=
  let t := ((schedule block).zip constants).foldl (fun t (word, constant) => round t (word + constant)) s
  match s, t with
  | ⟨a, b, c, d, e, f, g, h⟩, ⟨a', b', c', d', e', f', g', h'⟩ =>
    ⟨(a + a') % modulus, (b + b') % modulus, (c + c') % modulus, (d + d') % modulus,
      (e + e') % modulus, (f + f') % modulus, (g + g') % modulus, (h + h') % modulus⟩

/-- The message, a one bit, zeros, and the number of bits. -/
def pad (m : List Nat) : List Nat :=
  let zeros := (119 - m.length % 64) % 64
  let length := (List.range 8).map fun i => 8 * m.length / Nat.pow 256 (7 - i) % 256
  m ++ 0x80 :: List.replicate zeros 0 ++ length

def compressAll : Nat → List Nat → Words → Words
  | 0, _, s => s
  | n + 1, m, s => compressAll n (m.drop 64) (compress s (m.take 64))

def digest (m : List Nat) : Words := compressAll ((pad m).length / 64) (pad m) {}

def hexWord (w : Nat) : List Char :=
  (List.range 8).map fun i => Nat.digitChar (w / Nat.pow 16 (7 - i) % 16)

def hex (m : ByteArray) : String :=
  String.ofList ((digest (m.data.toList.map UInt8.toNat)).toList.flatMap hexWord)

end Taproom.Sha256
