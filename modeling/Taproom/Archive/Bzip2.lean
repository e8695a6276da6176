import Taproom.Archive.Bytes

/-!
Streams in the bzip2 format: blocks that are sorted, moved to front, run-length coded and packed
with prefix codes.
-/

namespace Taproom.Bzip2

open Archive (Bytes Fault Stream)

/-- Bits, the highest of each byte first. -/
abbrev Bits := List Bool

def bitsOf (b : UInt8) : Bits := (List.range 8).map fun i => b.toNat / Nat.pow 2 (7 - i) % 2 = 1

/-- Reading bits may meet the end of the stream or a fault of the format. -/
abbrev Reader (α : Type) := StateT Bits (Except Fault) α

def fail {α : Type} (problem : String) : Reader α := throw (.bzip2 problem)

def bit : Reader Bool := do
  match ← get with
  | [] => throw .ended
  | b :: rest => set rest; return b

def number : Nat → Nat → Reader Nat
  | 0, acc => return acc
  | n + 1, acc => do
    let b ← bit
    number n (2 * acc + if b then 1 else 0)

def bits (n : Nat) : Reader Nat := number n 0

def many {α : Type} (r : Reader α) : Nat → Reader (List α)
  | 0 => return []
  | n + 1 => do
    let v ← r
    return v :: (← many r n)

/-- Counts ones up to a zero, at most `limit` of them. -/
def ones : Nat → Nat → Reader Nat
  | 0, n => return n
  | limit + 1, n => do
    if ← bit then ones limit (n + 1) else return n

def moveToFront {α : Type} (l : List α) (i : Nat) : Option (α × List α) :=
  (l[i]?).map fun v => (v, v :: l.eraseIdx i)

structure Code where
  lengths : List Nat

def Code.table (c : Code) : List (Nat × Nat × Nat) :=
  let symbols := c.lengths.zipIdx
  let step (acc : Nat × List (Nat × Nat × Nat)) (len : Nat) : Nat × List (Nat × Nat × Nat) :=
    symbols.foldl (fun (code, out) (l, s) =>
      if l = len then (code + 1, (len, code, s) :: out) else (code, out)) (2 * acc.1, acc.2)
  ((List.range 20).map (· + 1)).foldl step (0, []) |>.2.reverse

def readSymbol (table : List (Nat × Nat × Nat)) (fuel len code : Nat) : Reader Nat :=
  match fuel with
  | 0 => fail "invalid Huffman code"
  | fuel + 1 => do
    let code := 2 * code + if ← bit then 1 else 0
    let len := len + 1
    match table.find? fun (l, c, _) => l = len && c = code with
    | some (_, _, s) => return s
    | none => readSymbol table fuel len code

def readDelta (fuel len : Nat) : Reader Nat :=
  match fuel with
  | 0 => fail "Huffman length out of range"
  | fuel + 1 => do
    if len < 1 || len > 20 then fail "Huffman length out of range"
    if ← bit then
      if ← bit then readDelta fuel (len - 1) else readDelta fuel (len + 1)
    else return len

def readLengths : Nat → Nat → Reader (List Nat)
  | 0, _ => return []
  | n + 1, len => do
    let len ← readDelta 1000 len
    return len :: (← readLengths n len)

def readUsed : Reader (List UInt8) := do
  let groups ← bits 16
  let parts ← (List.range 16).mapM fun g => do
    if groups / Nat.pow 2 (15 - g) % 2 = 1 then
      let flags ← bits 16
      return (List.range 16).filterMap fun i =>
        if flags / Nat.pow 2 (15 - i) % 2 = 1 then some (16 * g + i).toUInt8 else none
    else return []
  return parts.flatten

/-- Reads symbols until the end mark. `group` counts the symbols left for the current code, `run`
and `weight` collect a run of the front byte. -/
def readBody (fuel : Nat) (codes : List (List (Nat × Nat × Nat))) (selectors : List Nat)
    (group : Nat) (front : List UInt8) (endMark run weight : Nat) (acc : Array UInt8) :
    Reader (Array UInt8) :=
  match fuel with
  | 0 => fail "too many symbols"
  | fuel + 1 => do
    let (selectors, group) := if group = 0 then (selectors.drop 1, 50) else (selectors, group)
    match selectors with
    | [] => fail "insufficient selector indices for number of decoded symbols"
    | sel :: _ =>
      let s ← readSymbol (codes.getD sel []) 20 0 0
      if s < 2 then
        readBody fuel codes selectors (group - 1) front endMark
          (run + weight * (s + 1)) (2 * weight) acc
      else
        let acc := match front with
          | b :: _ => acc ++ Array.replicate run b
          | [] => acc
        if s = endMark then return acc
        match moveToFront front (s - 1) with
        | none => fail "bad symbol"
        | some (b, front) =>
          readBody fuel codes selectors (group - 1) front endMark 0 1 (acc.push b)

def unsort (column : Array UInt8) (start : Nat) : List UInt8 :=
  let counts := column.foldl (fun (c : Array Nat) b => c.modify b.toNat (· + 1)) (Array.replicate 256 0)
  let (_, starts) := counts.foldl (fun (sum, out) n => (sum + n, out.push sum)) (0, (#[] : Array Nat))
  let (_, next) := (List.range column.size).foldl
    (fun (places, next) i =>
      let b := (column.getD i 0).toNat
      let p := places.getD b 0
      (places.setIfInBounds b (p + 1), next.setIfInBounds p i))
    (starts, Array.replicate column.size 0)
  ((List.range column.size).foldl
    (fun (at_, out) _ => (next.getD at_ 0, column.getD at_ 0 :: out))
    (next.getD start 0, ([] : List UInt8))).2.reverse

/-- Undoes the coding of runs: four equal bytes are followed by the number of further ones. -/
def expandRuns (last : Option UInt8) (count : Nat) : List UInt8 → List UInt8
  | [] => []
  | b :: rest =>
    if count = 4 then List.replicate b.toNat (last.getD 0) ++ expandRuns none 0 rest
    else if last = some b then b :: expandRuns last (count + 1) rest
    else b :: expandRuns (some b) 1 rest

def readBlock : Reader Bytes := do
  let _ ← bits 32
  if ← bit then fail "deprecated randomized files"
  let start ← bits 24
  let used ← readUsed
  if used.isEmpty then fail "no symbols in input"
  let codeCount ← bits 3
  if codeCount < 2 || codeCount > 6 then fail "invalid number of Huffman trees"
  let selectorCount ← bits 15
  let raw ← many (ones codeCount 0) selectorCount
  let (_, selectors) ← raw.foldlM (fun (front, out) i =>
    match moveToFront front i with
    | some (s, front) => pure (front, out ++ [s])
    | none => fail "tree index too large") (List.range codeCount, ([] : List Nat))
  let codes ← many (do
    let len ← bits 5
    return (Code.mk (← readLengths (used.length + 2) len)).table) codeCount
  let column ← readBody 2000000 codes (0 :: selectors) 0 used (used.length + 1) 0 1 #[]
  if start ≥ column.size && column.size > 0 then fail "pointer out of bounds"
  return expandRuns none 0 (unsort column start)

def readBlocks (fuel : Nat) (s : Bits) (acc : Bytes) : Stream :=
  match fuel with
  | 0 => ⟨acc, some .ended⟩
  | fuel + 1 =>
    match (bits 48).run s with
    | .error f => ⟨acc, some f⟩
    | .ok (mark, s) =>
      if mark = 0x314159265359 then
        match readBlock.run s with
        | .error f => ⟨acc, some f⟩
        | .ok (block, s) => readBlocks fuel s (acc ++ block)
      else if mark = 0x177245385090 then
        match (bits 32).run s with
        | .error f => ⟨acc, some f⟩
        | .ok _ => ⟨acc, none⟩
      else ⟨acc, some (.bzip2 "bad magic value found")⟩

def decode (bs : Bytes) : Stream :=
  match bs with
  | 0x42 :: 0x5a :: 0x68 :: level :: rest =>
    if level < 0x31 || level > 0x39 then ⟨[], some (.bzip2 "invalid compression level")⟩
    else readBlocks (rest.length + 1) (rest.flatMap bitsOf) []
  | 0x42 :: 0x5a :: h :: _ :: _ =>
    ⟨[], some (.bzip2 (if h = 0x68 then "bad magic value" else "non-Huffman entropy encoding"))⟩
  | _ :: _ :: _ :: _ :: _ => ⟨[], some (.bzip2 "bad magic value")⟩
  | _ => ⟨[], some .ended⟩

end Taproom.Bzip2
