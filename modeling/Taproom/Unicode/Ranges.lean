/-!
Sets of characters as ranges of their numbers.
-/

namespace Taproom.Unicode

abbrev Ranges := List (Nat × Nat)

namespace Ranges

def top : Nat := 0x10ffff

def has (r : Ranges) (n : Nat) : Bool := r.any fun (lo, hi) => lo ≤ n && n ≤ hi

/-- Joins ranges that touch; they come in ascending order of their lower ends. -/
def join : Ranges → Ranges
  | [] => []
  | [r] => [r]
  | (lo, hi) :: (lo', hi') :: rest =>
    if lo' ≤ hi + 1 then join ((lo, max hi hi') :: rest)
    else (lo, hi) :: join ((lo', hi') :: rest)
termination_by r => r.length
decreasing_by all_goals (simp only [List.length_cons]; omega)

/-- The ranges in ascending order, with a gap between any two of them. -/
def normal (r : Ranges) : Ranges :=
  join ((r.filter fun (lo, hi) => lo ≤ hi).mergeSort fun a b => a.1 ≤ b.1)

def gaps (start : Nat) : Ranges → Ranges
  | [] => if start ≤ top then [(start, top)] else []
  | (lo, hi) :: rest => if start < lo then (start, lo - 1) :: gaps (hi + 1) rest else gaps (hi + 1) rest

def complement (r : Ranges) : Ranges := gaps 0 r

def hexDigit (c : Char) : Nat :=
  if '0' ≤ c && c ≤ '9' then c.toNat - '0'.toNat
  else if 'a' ≤ c && c ≤ 'f' then c.toNat - 'a'.toNat + 10
  else 0

def hexValue (s : List Char) : Nat := s.foldl (fun n c => 16 * n + hexDigit c) 0

/-- Reads `41`, `41-5a`, or `100-12e/2` for every other number of a range. -/
def ofToken (s : List Char) : Ranges :=
  let lo := hexValue (s.takeWhile (· ≠ '-'))
  match s.dropWhile (· ≠ '-') with
  | [] => [(lo, lo)]
  | _ :: rest =>
    let hi := hexValue (rest.takeWhile (· ≠ '/'))
    if rest.contains '/' then
      (List.range ((hi - lo) / 2 + 1)).map fun i => (lo + 2 * i, lo + 2 * i)
    else [(lo, hi)]

def tokens (s : List Char) : List (List Char) :=
  let (word, words) := s.foldr
    (fun c (word, words) =>
      if c = ' ' ∨ c = '\n' then ([], if word.isEmpty then words else word :: words)
      else (c :: word, words))
    (([] : List Char), ([] : List (List Char)))
  if word.isEmpty then words else word :: words

/-- The digits of a number; those left out at its front are the ones of the number before it. -/
def fill (before digits : List Char) : List Char :=
  before.take (before.length - digits.length) ++ digits

/-- Writes out the numbers of ascending ranges: `1ee24 7 9-32` stands for `1ee24 1ee27 1ee29-1ee32`. -/
def writeOut (before : List Char) : List (List Char) → List (List Char)
  | [] => []
  | s :: rest =>
    let lo := fill before (s.takeWhile (· ≠ '-'))
    match s.dropWhile (· ≠ '-') with
    | [] => lo :: writeOut lo rest
    | dash :: s =>
      let hi := fill lo (s.takeWhile (· ≠ '/'))
      (lo ++ dash :: hi ++ s.dropWhile (· ≠ '/')) :: writeOut hi rest

def ofText (s : String) : Ranges := (writeOut [] (tokens s.toList)).flatMap ofToken

end Ranges

end Taproom.Unicode
