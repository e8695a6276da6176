import Taproom.Regex.Basic

/-!
Patterns as trees, the way they are put together while a text is read, and how large the trees
are. Size and height are noted at a node when they are asked for; a note is not taken back when
the node grows afterwards.
-/

namespace Taproom.Regex

structure Options where
  foldCase : Bool := false
  multiLine : Bool := false
  dotNewline : Bool := false
  shortest : Bool := false
  deriving DecidableEq, Repr

inductive Kind where
  | noMatch
  | empty
  | literal
  | set
  | anyButNewline
  | any
  | startLine
  | endLine
  | startText
  | endText
  | boundary
  | noBoundary
  | capture
  | star
  | plus
  | quest
  | counted
  | concat
  | alternate
  | leftParen
  | bar
  deriving DecidableEq, Repr

def Kind.rank : Kind → Nat
  | literal => 1
  | set => 2
  | anyButNewline => 3
  | any => 4
  | _ => 0

def Kind.isMark : Kind → Bool
  | leftParen | bar => true
  | _ => false

structure Head where
  kind : Kind
  options : Options := {}
  chars : List Nat := []
  set : CharSet := []
  least : Nat := 0
  most : Option Nat := none
  group : Nat := 0
  dollar : Bool := false
  size : Option Nat := none
  height : Option Nat := none
  deriving DecidableEq, Repr

inductive Tree where
  | node (head : Head) (subs : List Tree)

namespace Tree

def head : Tree → Head
  | node h _ => h

def subs : Tree → List Tree
  | node _ s => s

def kind (t : Tree) : Kind := t.head.kind

def runes (t : Tree) : Nat :=
  match t.kind with
  | .literal => t.head.chars.length
  | .set => 2 * t.head.set.length
  | _ => 0

def ownSize (h : Head) (subs : List Tree) : Nat :=
  let sizes := subs.map fun s => s.head.size.getD 1
  let total := sizes.foldl (· + ·) 0
  max 1 <| match h.kind with
    | .literal => h.chars.length
    | .capture | .star => 2 + total
    | .plus | .quest => 1 + total
    | .concat => total
    | .alternate => total + (subs.length - 1)
    | .counted =>
      match h.most with
      | none => if h.least = 0 then 2 + total else 1 + h.least * total
      | some m => m * total + (m - h.least)
    | _ => 0

def ownHeight (subs : List Tree) : Nat :=
  (subs.map fun s => 1 + s.head.height.getD 1).foldl max 1

mutual

def withSize : Tree → Tree
  | node h subs =>
    if h.size.isSome then node h subs
    else
      let subs := withSizes subs
      node { h with size := some (ownSize h subs) } subs

def withSizes : List Tree → List Tree
  | [] => []
  | t :: rest => withSize t :: withSizes rest

end

mutual

def withHeight : Tree → Tree
  | node h subs =>
    if h.height.isSome then node h subs
    else
      let subs := withHeights subs
      node { h with height := some (ownHeight subs) } subs

def withHeights : List Tree → List Tree
  | [] => []
  | t :: rest => withHeight t :: withHeights rest

end

def resize : Tree → Tree
  | node h subs =>
    let subs := withSizes subs
    node { h with size := some (ownSize h subs) } subs

def remeasure : Tree → Tree
  | node h subs =>
    let subs := withHeights subs
    node { h with height := some (ownHeight subs) } subs

def isOne (t : Tree) : Bool :=
  match t.kind with
  | .literal => t.head.chars.length = 1
  | .set | .anyButNewline | .any => true
  | _ => false

def oneSet (t : Tree) : CharSet :=
  match t.kind with
  | .literal => CharSet.ofCode t.head.options.foldCase (t.head.chars.headD 0)
  | .set => t.head.set
  | .anyButNewline => CharSet.notNewline
  | .any => CharSet.anything
  | _ => []

mutual

def same : Tree → Tree → Bool
  | node a as, node b bs =>
    a.kind == b.kind && sameAll as bs &&
      match a.kind with
      | .endText => a.dollar == b.dollar
      | .literal => a.chars == b.chars
      | .set => a.set == b.set
      | .star | .plus | .quest => a.options.shortest == b.options.shortest
      | .counted => a.options.shortest == b.options.shortest && a.least == b.least && a.most == b.most
      | .capture => a.group == b.group
      | _ => true

def sameAll : List Tree → List Tree → Bool
  | [], [] => true
  | a :: as, b :: bs => same a b && sameAll as bs
  | _, _ => false

end

mutual

def fits (n : Nat) : Tree → Bool
  | node h subs =>
    match h.kind with
    | .counted =>
      match h.most with
      | some 0 => true
      | some m => m ≤ n && fitsAll (n / m) subs
      | none => h.least ≤ n && fitsAll (if h.least = 0 then n else n / h.least) subs
    | _ => fitsAll n subs

def fitsAll (n : Nat) : List Tree → Bool
  | [] => true
  | t :: rest => fits n t && fitsAll n rest

end

def chain (f : Regex → Regex → Regex) (unit : Regex) : List Regex → Regex
  | [] => unit
  | [r] => r
  | r :: rest => f r (chain f unit rest)

mutual

def toRegex : Tree → Regex
  | node h subs =>
    match h.kind with
    | .noMatch => .one []
    | .literal => chain .seq .empty (h.chars.map fun c => .one (CharSet.ofCode h.options.foldCase c))
    | .set => .one h.set
    | .anyButNewline => .one CharSet.notNewline
    | .any => .one CharSet.anything
    | .startLine => .startLine
    | .endLine => .endLine
    | .startText => .startText
    | .endText => .endText
    | .boundary => .boundary true
    | .noBoundary => .boundary false
    | .star => .repeated (chain .seq .empty (toRegexes subs)) 0 none
    | .plus => .repeated (chain .seq .empty (toRegexes subs)) 1 none
    | .quest => .repeated (chain .seq .empty (toRegexes subs)) 0 (some 1)
    | .counted => .repeated (chain .seq .empty (toRegexes subs)) h.least h.most
    | .alternate => chain .alt (.one []) (toRegexes subs)
    | .capture | .concat => chain .seq .empty (toRegexes subs)
    | .empty | .leftParen | .bar => .empty

def toRegexes : List Tree → List Regex
  | [] => []
  | t :: rest => toRegex t :: toRegexes rest

end

end Tree

end Taproom.Regex
