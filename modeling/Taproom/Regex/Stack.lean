import Taproom.Regex.Fault
import Taproom.Regex.Tree

/-!
The stack on which a pattern is put together, with the limits on what may be put there. Literals
that follow each other grow into one, alternatives for one character into a set, and what
alternatives start with in common is taken out in front of them.
-/

namespace Taproom.Regex

def maxHeight : Nat := 1000

def maxSize : Nat := 3355443

def maxRunes : Nat := 33554432

def maxCount : Nat := 1000

structure Stack where
  whole : String
  options : Options := {}
  items : List Tree := []
  made : Nat := 0
  free : Nat := 0
  runes : Nat := 0
  copies : Nat := 1
  sizing : Bool := false
  measuring : Bool := false
  groups : Nat := 0

abbrev Build (α : Type) := StateT Stack (Except Fault) α

namespace Stack

def fresh (h : Head) (subs : List Tree) : Build Tree := do
  modify fun s => if s.free > 0 then { s with free := s.free - 1 } else { s with made := s.made + 1 }
  return .node h subs

def reuse : Build Unit := modify fun s => { s with free := s.free + 1 }

def checkedSize (t : Tree) : Build Tree := do
  let t := t.resize
  if t.head.size.getD 0 > maxSize then throw (.large (← get).whole)
  return t

def checkedHeight (t : Tree) : Build Tree := do
  let t := t.remeasure
  if t.head.height.getD 0 > maxHeight then throw (.nesting (← get).whole)
  return t

/-- Notes the size of a tree once the counts or the number of nodes call for it. -/
def checkSize (t : Tree) : Build Tree := do
  if !(← get).sizing then
    if t.kind = .counted then
      let n := max 1 (t.head.most.getD t.head.least)
      modify fun s =>
        { s with copies := if n > maxSize / s.copies then maxSize else s.copies * n }
    let s ← get
    if s.made < maxSize / s.copies then return t
    modify fun s => { s with sizing := true }
    let items ← s.items.reverse.mapM checkedSize
    modify fun s => { s with items := items.reverse }
  checkedSize t

def checkHeight (t : Tree) : Build Tree := do
  let s ← get
  if s.made < maxHeight then return t
  if !s.measuring then
    modify fun s => { s with measuring := true }
    let items ← s.items.reverse.mapM checkedHeight
    modify fun s => { s with items := items.reverse }
  checkedHeight t

def check (t : Tree) : Build Tree := do
  let s ← get
  if s.runes > maxRunes then throw (.large s.whole)
  checkHeight (← checkSize t)

/-- Joins the two topmost literals. With `next` the node that this frees holds that character, and
the result is true. -/
def joinLiterals (next : Option (Nat × Options)) : Build Bool := do
  let s ← get
  match s.items with
  | .node a _ :: .node b bs :: rest =>
    if a.kind = .literal ∧ b.kind = .literal ∧ a.options.foldCase = b.options.foldCase then
      let joined := Tree.node { b with chars := b.chars ++ a.chars } bs
      match next with
      | some (c, options) =>
        set { s with items := .node { a with chars := [c], options := options } [] :: joined :: rest }
        return true
      | none =>
        set { s with items := joined :: rest }
        reuse
        return false
    else return false
  | _ => return false

def casePair? (set : CharSet) : Option Nat :=
  match set with
  | [(a, b)] => if a + 1 = b ∧ Unicode.caseClass a = [a, b] then some a else none
  | [(a, a'), (b, b')] =>
    if a = a' ∧ b = b' ∧ Unicode.caseClass a = [a, b] then some a else none
  | _ => none

/-- Puts a tree on the stack. A set of one character is a literal, and so are two that differ only
in case. -/
def push (t : Tree) : Build Unit := do
  modify fun s => { s with runes := s.runes + t.runes }
  let options := (← get).options
  let settle (t : Tree) : Build Unit := do
    let t ← check t
    modify fun s => { s with items := t :: s.items }
  let literal (c : Nat) (options : Options) : Build Unit := do
    if !(← joinLiterals (some (c, options))) then
      settle (.node { t.head with kind := .literal, chars := [c], set := [], options := options } t.subs)
  let other : Build Unit := do
    let _ ← joinLiterals none
    settle t
  if t.kind = .set then
    match t.head.set with
    | [(a, b)] =>
      if a = b then literal a { options with foldCase := false }
      else
        match casePair? [(a, b)] with
        | some c => literal c { options with foldCase := true }
        | none => other
    | set =>
      match casePair? set with
      | some c => literal c { options with foldCase := true }
      | none => other
  else other

def pushChar (c : Nat) : Build Unit := do
  let options := (← get).options
  let c := if options.foldCase then (Unicode.caseClass c).headD c else c
  push (← fresh { kind := .literal, options := options, chars := [c] } [])

def pushKind (kind : Kind) : Build Unit := do
  push (← fresh { kind := kind, options := (← get).options } [])

def pushSet (set : CharSet) : Build Unit := do
  push (← fresh { kind := .set, options := (← get).options, set := set } [])

def leadingChars (t : Tree) : List Nat × Bool :=
  let first : Tree := match t with
    | .node h (f :: _) => if h.kind = Kind.concat then f else t
    | t => t
  if first.kind = .literal then (first.head.chars, first.head.options.foldCase) else ([], false)

def dropChars (n : Nat) (t : Tree) : Tree :=
  match t with
  | .node h subs =>
    if h.kind = .literal then
      let chars := h.chars.drop n
      .node { h with chars := chars, kind := if chars.isEmpty then .empty else .literal } subs
    else t

def removeChars (n : Nat) (t : Tree) : Build Tree := do
  match t with
  | .node h (first :: rest) =>
    if h.kind = .concat then
      let first := dropChars n first
      if first.kind = .empty then
        reuse
        match rest with
        | [] => return .node { h with kind := .empty } []
        | [only] => reuse; return only
        | rest => return .node h rest
      else return .node h (first :: rest)
    else return dropChars n t
  | t => return dropChars n t

def leadingPart? (t : Tree) : Option Tree :=
  match t with
  | .node h (first :: _) =>
    if h.kind = .empty then none
    else if h.kind = .concat then (if first.kind = .empty then none else some first)
    else some t
  | .node h [] => if h.kind = .empty then none else some t

def removePart (t : Tree) (giveBack : Bool) : Build Tree := do
  match t with
  | .node h (_ :: rest) =>
    if h.kind = .concat then
      if giveBack then reuse
      match rest with
      | [] => return .node { h with kind := .empty } []
      | [only] => reuse; return only
      | rest => return .node h rest
    else whole
  | _ => whole
where
  whole : Build Tree := do
    if giveBack then reuse
    fresh { kind := .empty } []

/-- Whether a common first part may be taken out: a character, or a fixed number of them. -/
def isSimple (t : Tree) : Bool :=
  t.isOne ||
    match t with
    | .node h [sub] => h.kind = .counted && h.most = some h.least && sub.isOne
    | _ => false

def commonLength : List Nat → List Nat → Nat
  | a :: as, b :: bs => if a = b then commonLength as bs + 1 else 0
  | _, _ => 0

def tidy (t : Tree) : Tree :=
  match t with
  | .node h subs =>
    if h.kind = .set then
      if h.set = CharSet.anything then .node { h with kind := .any, set := [] } subs
      else if h.set = CharSet.notNewline then .node { h with kind := .anyButNewline, set := [] } subs
      else t
    else t

def uniteOne (a b : Tree) : Tree :=
  match a with
  | .node h subs =>
    match h.kind with
    | .anyButNewline => if b.oneSet.holds 10 then .node { h with kind := .any } subs else a
    | .set => .node { h with set := h.set.union b.oneSet } subs
    | .literal =>
      if h.chars = b.head.chars ∧ h.options = b.head.options then a
      else .node { h with kind := .set, chars := [], set := a.oneSet.union b.oneSet } subs
    | _ => a

/-- Whether `b` is more general than `a`. -/
def isBelow (a b : Tree) : Bool :=
  a.kind.rank < b.kind.rank || (a.kind.rank == b.kind.rank && a.runes < b.runes)

def unite (run : List Tree) : Build (List Tree) := do
  match run with
  | [] => return []
  | [t] => return [t]
  | first :: rest =>
    let place := (run.zipIdx.foldl (fun (best : Tree × Nat) t => if isBelow best.1 t.1 then t else best)
      (first, 0))
    let others := if place.2 = 0 then rest else (run.set place.2 first).drop 1
    let mut all := place.1
    for t in others do
      all := uniteOne all t
      reuse
    return [tidy all]

def uniteRuns (run : List Tree) : List Tree → Build (List Tree)
  | [] => unite run.reverse
  | t :: rest =>
    if t.isOne then uniteRuns (t :: run) rest
    else do
      let front ← unite run.reverse
      return front ++ t :: (← uniteRuns [] rest)

def dropEmpty : List Tree → List Tree
  | a :: b :: rest =>
    if a.kind = .empty ∧ b.kind = .empty then dropEmpty (b :: rest) else a :: dropEmpty (b :: rest)
  | l => l

mutual

def collapse (fuel : Nat) (subs : List Tree) (kind : Kind) : Build Tree :=
  match fuel, subs with
  | 0, _ => do throw (.nesting (← get).whole)
  | _, [only] => return only
  | fuel + 1, subs => do
    let _ ← fresh { kind := kind } []
    let parts ← subs.mapM fun t => do
      if t.kind = kind then
        reuse
        return t.subs
      else return [t]
    let parts := parts.flatten
    if kind = .alternate then
      match ← factor fuel parts with
      | [only] => reuse; return only
      | parts => return .node { kind := kind } parts
    else return .node { kind := kind } parts

def factor (fuel : Nat) (subs : List Tree) : Build (List Tree) :=
  match fuel with
  | 0 => return subs
  | fuel + 1 => do
    if subs.length < 2 then return subs
    let subs ← factorChars fuel [] [] false subs
    let subs ← factorParts fuel [] none subs
    let subs ← uniteRuns [] subs
    return dropEmpty subs

/-- Takes out the characters that alternatives start with. `run` are those, latest first, that
start with `chars`. -/
def factorChars (fuel : Nat) (run : List Tree) (chars : List Nat) (folded : Bool) (subs : List Tree) :
    Build (List Tree) :=
  match fuel, subs with
  | 0, subs => return run.reverse ++ subs
  | fuel + 1, [] => charsOut fuel run.reverse chars folded
  | fuel + 1, t :: rest => do
    let (own, ownFolded) := leadingChars t
    let common := if ownFolded = folded then commonLength chars own else 0
    if common > 0 then factorChars fuel (t :: run) (chars.take common) folded rest
    else
      let front ← charsOut fuel run.reverse chars folded
      return front ++ (← factorChars fuel [t] own ownFolded rest)

def charsOut (fuel : Nat) (run : List Tree) (chars : List Nat) (folded : Bool) : Build (List Tree) :=
  match fuel, run with
  | _, [] => return []
  | _, [t] => return [t]
  | 0, run => return run
  | fuel + 1, run => do
    let front ← fresh { kind := .literal, options := { foldCase := folded }, chars := chars } []
    let ends ← run.mapM fun t => do check (← removeChars chars.length t)
    let back ← collapse fuel ends .alternate
    return [← fresh { kind := .concat } [front, back]]

def factorParts (fuel : Nat) (run : List Tree) (first : Option Tree) (subs : List Tree) :
    Build (List Tree) :=
  match fuel, subs with
  | 0, subs => return run.reverse ++ subs
  | fuel + 1, [] => partsOut fuel run.reverse first
  | fuel + 1, t :: rest => do
    let own := leadingPart? t
    let continues := match first, own with
      | some a, some b => a.same b && isSimple a
      | _, _ => false
    if continues then factorParts fuel (t :: run) first rest
    else
      let front ← partsOut fuel run.reverse first
      return front ++ (← factorParts fuel [t] own rest)

def partsOut (fuel : Nat) (run : List Tree) (first : Option Tree) : Build (List Tree) :=
  match fuel, run, first with
  | _, [], _ => return []
  | _, [t], _ => return [t]
  | fuel + 1, run, some first => do
    let ends ← run.zipIdx.mapM fun (t, i) => do check (← removePart t (i ≠ 0))
    let back ← collapse fuel ends .alternate
    return [← fresh { kind := .concat } [first, back]]
  | _, run, _ => return run

end

/-- The trees above the topmost mark, in the order of the text, and what is left. -/
def split (items : List Tree) : List Tree × List Tree :=
  ((items.takeWhile fun t => !t.kind.isMark).reverse, items.dropWhile fun t => !t.kind.isMark)

/-- More steps than the joining of alternatives can take. -/
def enough (s : Stack) : Nat := 4 * s.whole.length + 64

def concat : Build Unit := do
  let _ ← joinLiterals none
  let s ← get
  let (subs, rest) := split s.items
  set { s with items := rest }
  if subs.isEmpty then push (← fresh { kind := .empty } [])
  else push (← collapse s.enough subs .concat)

def alternate : Build Unit := do
  let s ← get
  let (subs, rest) := split s.items
  set { s with items := rest }
  match subs.reverse with
  | [] => push (← fresh { kind := .noMatch } [])
  | last :: others => push (← collapse s.enough (others.reverse ++ [tidy last]) .alternate)

/-- Moves the topmost tree below the bar under it. Two alternatives for one character join. -/
def passBar : Build Bool := do
  let s ← get
  match s.items with
  | a :: .node b bs :: rest =>
    if b.kind ≠ .bar then return false
    match rest with
    | c :: rest' =>
      if a.isOne && c.isOne then
        let (low, high) := if c.kind.rank < a.kind.rank then (c, a) else (a, c)
        set { s with items := .node b bs :: uniteOne high low :: rest' }
        reuse
      else set { s with items := .node b bs :: a :: tidy c :: rest' }
    | [] => set { s with items := .node b bs :: a :: [] }
    return true
  | _ => return false

def bar : Build Unit := do
  concat
  if !(← passBar) then pushKind .bar

def finishAlternatives : Build Unit := do
  concat
  if ← passBar then modify fun s => { s with items := s.items.drop 1 }
  alternate

def openGroup (captures : Bool) : Build Unit := do
  if captures then modify fun s => { s with groups := s.groups + 1 }
  let s ← get
  push (← fresh
    { kind := .leftParen, options := s.options, group := if captures then s.groups else 0 } [])

def closeGroup : Build Unit := do
  finishAlternatives
  let s ← get
  match s.items with
  | t :: .node h subs :: rest =>
    if h.kind ≠ .leftParen then throw (.unexpectedParen s.whole)
    set { s with items := rest, options := h.options }
    if h.group = 0 then push t
    else push (.node { h with kind := .capture } (t :: subs))
  | _ => throw (.unexpectedParen s.whole)

def repeatTop (kind : Kind) (least : Nat) (most : Option Nat) (shortest : Bool)
    (missing tooMany : Fault) : Build Unit := do
  let s ← get
  match s.items with
  | t :: rest =>
    if t.kind.isMark then throw missing
    let node ← fresh
      { kind := kind, options := { s.options with shortest := shortest }, least := least, most := most } [t]
    modify fun s => { s with items := rest }
    let node ← check node
    modify fun s => { s with items := node :: s.items }
    let counted := kind = .counted && (least ≥ 2 || most.any (· ≥ 2))
    if counted && !node.fits maxCount then throw tooMany
  | [] => throw missing

def finish : Build Tree := do
  finishAlternatives
  let s ← get
  match s.items with
  | [t] => return t
  | _ => throw (.missingParen s.whole)

end Stack

end Taproom.Regex
