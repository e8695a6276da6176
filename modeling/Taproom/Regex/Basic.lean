import Taproom.Regex.CharSet

/-!
Patterns and the texts in which they occur. A pattern maps a set of positions to the set of
positions that it can reach from them.
-/

namespace Taproom

/-- A pattern. Repetition goes from `least` times to `most` times, or on and on. -/
inductive Regex where
  | empty
  | one (set : Regex.CharSet)
  | seq (a b : Regex)
  | alt (a b : Regex)
  | repeated (r : Regex) (least : Nat) (most : Option Nat)
  | startText
  | endText
  | startLine
  | endLine
  | boundary (expected : Bool)
  deriving DecidableEq, Repr, Inhabited

namespace Regex

def isWordAt (s : Array Char) (i : Nat) : Bool :=
  match s[i]? with
  | some c => CharSet.word.holds c.toNat
  | none => false

def atBoundary (s : Array Char) (i : Nat) : Bool :=
  (0 < i && isWordAt s (i - 1)) != isWordAt s i

def merge : List Nat → List Nat → List Nat
  | [], b => b
  | a, [] => a
  | x :: a, y :: b =>
    if x < y then x :: merge a (y :: b)
    else if y < x then y :: merge (x :: a) b
    else x :: merge a b
termination_by a b => a.length + b.length
decreasing_by all_goals (simp only [List.length_cons]; omega)

/-- Applies `f` again and again, `n` times, and keeps everything seen on the way. -/
def closure (f : List Nat → List Nat) : Nat → List Nat → List Nat
  | 0, seen => seen
  | n + 1, seen =>
    let more := merge seen (f seen)
    if more = seen then seen else closure f n more

def power (f : List Nat → List Nat) : Nat → List Nat → List Nat
  | 0, seen => seen
  | n + 1, seen => power f n (f seen)

/-- The positions of `s` that the pattern reaches from the positions `from`. -/
def reach (s : Array Char) : Regex → List Nat → List Nat
  | .empty, starts => starts
  | .one set, starts => starts.filterMap fun i =>
    match s[i]? with
    | some c => if set.holds c.toNat then some (i + 1) else none
    | none => none
  | .seq a b, starts => reach s b (reach s a starts)
  | .alt a b, starts => merge (reach s a starts) (reach s b starts)
  | .repeated r least most, starts =>
    let base := power (reach s r) least starts
    match most with
    | some m => closure (reach s r) (m - least) base
    | none => closure (reach s r) (s.size + 1) base
  | .startText, starts => starts.filter (· = 0)
  | .endText, starts => starts.filter (· = s.size)
  | .startLine, starts => starts.filter fun i => i = 0 || s[i - 1]? = some '\n'
  | .endLine, starts => starts.filter fun i => i = s.size || s[i]? = some '\n'
  | .boundary expected, starts => starts.filter fun i => atBoundary s i == expected

def occursIn (r : Regex) (text : String) : Bool :=
  let s := text.toList.toArray
  !(r.reach s (List.range (s.size + 1))).isEmpty

def longest? (r : Regex) (s : Array Char) (start : Nat) : Option Nat := (r.reach s [start]).getLast?

def replaceIn (r : Regex) (all : Bool) (new : List Char → List Char) (text : List Char) : List Char :=
  go text.toArray (text.length + 1) 0 text true
where
  go (s : Array Char) (fuel i : Nat) (rest : List Char) (more : Bool) : List Char :=
    match fuel with
    | 0 => []
    | fuel + 1 =>
      match if more then longest? r s i else none, rest with
      | some j, rest =>
        if j = i then
          match rest with
          | [] => new []
          | c :: rest => new [] ++ c :: go s fuel (i + 1) rest all
        else new (rest.take (j - i)) ++ go s fuel j (rest.drop (j - i)) all
      | none, c :: rest => c :: go s fuel (i + 1) rest more
      | none, [] => []

end Regex

end Taproom
