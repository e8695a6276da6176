/-!
The edit distance of two texts: how many insertions, deletions and replacements lead from one to
the other.
-/

namespace Taproom.Text

variable {α : Type} [DecidableEq α]

/-- The next row of the table of distances. `left` is the last distance of the row so far, `above`
pairs each element with the distances above it and to its upper left. -/
def distanceRow (c : α) (left : Nat) : List (α × Nat × Nat) → List Nat
  | [] => []
  | (x, corner, above) :: rest =>
    let n := if c = x then corner else min (min above left) corner + 1
    n :: distanceRow c n rest

def distance (s t : List α) : Nat :=
  let rows := s.foldl (fun row c =>
    let first := row.headD 0 + 1
    first :: distanceRow c first (t.zip (row.zip (row.drop 1)))) (List.range (t.length + 1))
  rows.getLastD 0

end Taproom.Text
