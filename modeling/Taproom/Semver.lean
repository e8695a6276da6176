import Taproom.Text.Cut

/-!
Semantic versions, read leniently: blanks around the text and a leading `v` are dropped, leading
zeros of the three numbers too, and missing numbers count as zero.
-/

namespace Taproom

inductive Semver.Part where
  | number (n : Nat)
  | word (s : List Char)
  deriving DecidableEq, Repr

structure Semver where
  major : Nat
  minor : Nat
  patch : Nat
  pre : List Semver.Part
  deriving DecidableEq, Repr

namespace Semver

def limit : Nat := Nat.pow 2 64

def isDigit (c : Char) : Bool := '0' ≤ c && c ≤ '9'

def isWordChar (c : Char) : Bool :=
  isDigit c || ('a' ≤ c && c ≤ 'z') || ('A' ≤ c && c ≤ 'Z') || c == '-'

def value (s : List Char) : Nat :=
  s.foldl (fun n c => 10 * n + (c.toNat - '0'.toNat)) 0

def number? (s : List Char) : Option Nat :=
  match s with
  | [] => none
  | c :: rest =>
    if s.all isDigit && (c != '0' || rest.isEmpty) && value s < limit then some (value s) else none

def part? (s : List Char) : Option Part :=
  if s.isEmpty then none
  else if s.all isDigit then (number? s).map .number
  else if s.all isWordChar then some (.word s)
  else none

/-- Removes leading zeros. What does not begin with a digit then gets one zero, unless it is a
single character. -/
def stripZeros (s : List Char) : List Char :=
  if s.length ≤ 1 then s
  else
    match s.dropWhile (· = '0') with
    | c :: rest => if isDigit c then c :: rest else '0' :: c :: rest
    | [] => ['0']

def threeParts (s : List Char) : List (List Char) :=
  match Text.cut? ['.'] s with
  | none => [s]
  | some (a, rest) =>
    match Text.cut? ['.'] rest with
    | none => [a, rest]
    | some (b, c) => [a, b, c]

def cutWords (mark : Char) (s : List Char) : List Char × List (List Char) :=
  match Text.cut? [mark] s with
  | some (before, after) => (before, Text.splitAt '.' after)
  | none => (s, [])

/-- The strict form: three numbers, then a pre-release after `-`, then build words after `+`. -/
def parse? (s : List Char) : Option Semver :=
  match threeParts s with
  | [a, b, c] =>
    match number? a, number? b with
    | some major, some minor =>
      let (c, build) := cutWords '+' c
      let (c, pre) := cutWords '-' c
      if build.all fun w => !w.isEmpty && w.all isWordChar then
        match number? c, pre.mapM part? with
        | some patch, some pre => some ⟨major, minor, patch, pre⟩
        | _, _ => none
      else none
    | _, _ => none
  | _ => none

/-- Where a short version is filled up, its last number must not be followed by anything. -/
def tolerate (s : List Char) : Option (List Char) :=
  let s := Text.trim s
  let s := (Text.dropPrefix? ['v'] s).getD s
  let parts := threeParts s
  let parts := parts.map stripZeros
  if parts.length < 3 then
    if (parts.getLast?.getD []).any (fun c => c == '+' || c == '-') then none
    else some (Text.joinWith ['.'] (parts ++ List.replicate (3 - parts.length) ['0']))
  else some (Text.joinWith ['.'] parts)

def parseTolerant? (s : List Char) : Option Semver := (tolerate s).bind parse?

def compareChars : List Char → List Char → Ordering
  | [], [] => .eq
  | [], _ => .lt
  | _, [] => .gt
  | a :: s, b :: t => if a < b then .lt else if b < a then .gt else compareChars s t

def Part.compare : Part → Part → Ordering
  | .number a, .number b => Ord.compare a b
  | .number _, .word _ => .lt
  | .word _, .number _ => .gt
  | .word a, .word b => compareChars a b

/-- The first difference decides, then the shorter list comes first. -/
def comparePre : List Part → List Part → Ordering
  | [], [] => .eq
  | [], _ => .lt
  | _, [] => .gt
  | a :: s, b :: t => (a.compare b).then (comparePre s t)

def compare (a b : Semver) : Ordering :=
  (Ord.compare a.major b.major).then <| (Ord.compare a.minor b.minor).then <|
  (Ord.compare a.patch b.patch).then <|
  match a.pre, b.pre with
  | [], [] => .eq
  | [], _ => .gt
  | _, [] => .lt
  | p, q => comparePre p q

end Semver

end Taproom
