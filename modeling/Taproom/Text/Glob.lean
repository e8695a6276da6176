import Taproom.Text.Cut

/-!
Patterns for names: a star stands for any characters, a question mark for one, brackets for one of
a set, braces for alternatives, and a backslash takes the next character as it is.
-/

namespace Taproom.Glob

inductive Piece where
  | char (c : Char)
  | any
  | star
  | set (negated : Bool) (ranges : List (Char × Char))
  deriving DecidableEq, Repr

def readRanges (fuel : Nat) (first : Bool) (s : List Char) :
    Option (List (Char × Char) × List Char) :=
  match fuel with
  | 0 => none
  | fuel + 1 =>
    let one (s : List Char) : Option (Char × List Char) :=
      match s with
      | '\\' :: c :: rest => some (c, rest)
      | '\\' :: [] => none
      | c :: rest => some (c, rest)
      | [] => none
    match s, first with
    | ']' :: rest, false => some ([], rest)
    | s, _ => do
      let (lo, rest) ← one s
      match rest with
      | '-' :: more =>
        if more.head? = some ']' then none
        let (hi, rest) ← one more
        let (ranges, rest) ← readRanges fuel false rest
        some ((lo, hi) :: ranges, rest)
      | rest =>
        let (ranges, rest) ← readRanges fuel false rest
        some ((lo, lo) :: ranges, rest)

mutual

/-- Reads a pattern into its alternatives. `depth` counts the open braces. The result ends before
a comma or a closing brace when one is open. -/
def readPattern (fuel : Nat) (depth : Nat) (s : List Char) :
    Option (List (List Piece) × List Char) :=
  match fuel with
  | 0 => none
  | fuel + 1 =>
    let put (p : Piece) (rest : List Char) : Option (List (List Piece) × List Char) := do
      let (tails, rest) ← readPattern fuel depth rest
      some (tails.map (p :: ·), rest)
    match s with
    | [] => if depth = 0 then some ([[]], []) else none
    | '\\' :: c :: rest => put (.char c) rest
    | ['\\'] => none
    | '*' :: rest => put .star rest
    | '?' :: rest => put .any rest
    | '[' :: rest => do
      let (negated, body) := match rest with
        | '^' :: body => (true, body)
        | '!' :: body => (true, body)
        | body => (false, body)
      let (ranges, rest) ← readRanges (body.length + 1) true body
      put (.set negated ranges) rest
    | '\x7b' :: rest => do
      let (heads, rest) ← readAlternatives fuel (depth + 1) rest
      let (tails, rest) ← readPattern fuel depth rest
      some (heads.flatMap fun h => tails.map (h ++ ·), rest)
    | c :: rest =>
      if depth > 0 && (c = ',' || c = '\x7d') then some ([[]], s) else put (.char c) rest

def readAlternatives (fuel : Nat) (depth : Nat) (s : List Char) :
    Option (List (List Piece) × List Char) :=
  match fuel with
  | 0 => none
  | fuel + 1 => do
    let (first, rest) ← readPattern fuel depth s
    match rest with
    | '\x7d' :: rest => some (first, rest)
    | ',' :: rest =>
      let (others, rest) ← readAlternatives fuel depth rest
      some (first ++ others, rest)
    | _ => none

end

def parse? (s : List Char) : Option (List (List Piece)) :=
  match readPattern (2 * s.length + 2) 0 s with
  | some (alternatives, []) => some alternatives
  | _ => none

def matchPieces : List Piece → List Char → Bool
  | [], s => s.isEmpty
  | .char c :: ps, d :: s => c == d && matchPieces ps s
  | .any :: ps, _ :: s => matchPieces ps s
  | .set negated ranges :: ps, d :: s =>
    (ranges.any fun (lo, hi) => lo ≤ d && d ≤ hi) != negated && matchPieces ps s
  | .star :: ps, s => matchStar ps s
  | _ :: _, [] => false
where
  matchStar (ps : List Piece) : List Char → Bool
    | [] => matchPieces ps []
    | c :: s => matchPieces ps (c :: s) || matchStar ps s

def holds (alternatives : List (List Piece)) (name : String) : Bool :=
  alternatives.any fun ps => matchPieces ps name.toList

end Taproom.Glob
