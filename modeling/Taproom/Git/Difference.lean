import Taproom.Git.Repository

/-!
What changed between two trees. A file that is gone and one that is new make one renamed file when
their contents are alike enough.
-/

namespace Taproom.Git

inductive Change where
  | delete (path : String) (old : Blob)
  | insert (path : String) (new : Blob)
  | modify (before after : String) (old new : Blob)

/-- The path by which changes are put in order: the old one, if there is one. -/
def Change.sortKey : Change → String
  | .delete p _ | .insert p _ | .modify p _ _ _ => p

def Blob.isBinary (b : Blob) : Bool := (b.content.toList.take 8000).contains 0

def Change.isShown : Change → Bool
  | .delete _ b | .insert _ b => !b.isBinary && b.content.size ≠ 0
  | .modify _ _ a b => !a.isBinary && !b.isBinary && (a.content.size ≠ 0 || b.content.size ≠ 0)

/-- The name under which a change is reported. A renamed file has none. -/
def Change.name : Change → String
  | .delete p _ | .insert p _ => p
  | .modify p q _ _ => if p = q then p else ""

def regionSize : Nat := 64

/-- The pieces by which contents are compared: lines, or blocks of a line that is too long, each
with the number of bytes that it counts for. The end of a line counts, but not what is in front of
it to mark it in two bytes. -/
def regions (isBinary : Bool) (content : List UInt8) : List (List UInt8 × Nat) :=
  go content [] 0 0
where
  go : List UInt8 → List UInt8 → Nat → Nat → List (List UInt8 × Nat)
    | [], [], 0, _ => []
    | [], acc, n, _ => [(acc.reverse, n)]
    | c :: rest, acc, n, seen =>
      if !isBinary && c = 13 && rest.head? = some 10 then go rest acc n (seen + 1)
      else if c = 10 then (acc.reverse, n + 1) :: go rest [] 0 0
      else if seen + 1 ≥ regionSize then ((c :: acc).reverse, n + 1) :: go rest [] 0 0
      else go rest (c :: acc) (n + 1) (seen + 1)

def regionKey (bytes : List UInt8) : Nat :=
  let hash : UInt32 := bytes.foldl (fun h c => h * 33 + c.toUInt32) 5381
  ((hash * (0x9e370001 : UInt32)) >>> (1 : UInt32)).toNat

def bytesIn (l : List (Nat × Nat)) : Nat := l.foldl (fun n r => n + r.2) 0

def tally (l : List (Nat × Nat)) : List (Nat × Nat) :=
  (l.map (·.1)).eraseDups.map fun k => (k, bytesIn (l.filter (·.1 = k)))

def keyedRegions (b : Blob) : List (Nat × Nat) :=
  (regions b.isBinary b.content.toList).map fun (bytes, n) => (regionKey bytes, n)

def contentScore (a b : Blob) (most : Nat) : Nat :=
  let ra := keyedRegions a
  let rb := keyedRegions b
  let larger := max (bytesIn ra) (bytesIn rb)
  if larger = 0 then most
  else
    let tb := tally rb
    let common := (tally ra).map fun (k, n) => (k, min n (((tb.find? (·.1 = k)).map (·.2)).getD 0))
    bytesIn common * most / larger

def agreement {α : Type} [DecidableEq α] : List α → List α → Nat
  | a :: as, b :: bs => if a = b then agreement as bs + 1 else 0
  | _, _ => 0

def splitName (p : String) : List UInt8 × List UInt8 :=
  let bytes := p.toUTF8.toList
  let file := bytes.reverse.takeWhile (· ≠ 47)
  (bytes.take (bytes.length - file.length), file.reverse)

def nameScore (a b : String) : Nat :=
  let (da, fa) := splitName a
  let (db, fb) := splitName b
  let longest := max da.length db.length
  let left := if longest = 0 then 100 else agreement da db * 100 / longest
  let right := if left = 100 then 100 else agreement da.reverse db.reverse * 100 / longest
  let file := agreement fa.reverse fb.reverse * 100 / max 1 (max fa.length fb.length)
  ((left + right) * 25 + file * 50) / 100

structure Pair where
  score : Nat
  added : Nat
  deleted : Nat
  deriving DecidableEq, Repr

def Pair.before (a b : Pair) : Bool :=
  if a.score ≠ b.score then a.score ≤ b.score
  else if a.added ≠ b.added then a.added ≤ b.added
  else a.deleted ≤ b.deleted

def choose (pairs : List Pair) : List Pair :=
  (pairs.mergeSort Pair.before).reverse.foldl (fun chosen p =>
    if chosen.any fun q => q.added = p.added || q.deleted = p.deleted then chosen else chosen ++ [p]) []

abbrev Item := String × Blob

def sameContent (a b : Blob) : Bool := a.content.toList == b.content.toList

def sameMode (a b : Blob) : Bool := a.executable == b.executable && a.isLink == b.isLink

/-- The index of the file whose path is most like another one, if any is like it at all. -/
def likeliest? (path : String) (items : List Item) : Option Nat :=
  (items.zipIdx.foldl (fun (best : Option (Nat × Nat)) (item, i) =>
    let score := nameScore path item.1
    if score > (best.map (·.2)).getD 0 then some (i, score) else best) none).map (·.1)

structure Sorted where
  renamed : List Change := []
  gone : List Item := []
  added : List Item := []

def Sorted.ofPairs (gone added : List Item) (pairs : List (Nat × Nat)) : Sorted where
  renamed := pairs.filterMap fun (i, j) => do
    let (a, old) ← gone[i]?
    let (b, fresh) ← added[j]?
    some (Change.modify a b old fresh)
  gone := gone.zipIdx.filterMap fun (x, i) => if pairs.any (·.1 = i) then none else some x
  added := added.zipIdx.filterMap fun (x, j) => if pairs.any (·.2 = j) then none else some x

def pairLimit : Nat := 50

/-- Matches files of one content. A lone new file that is like none of several old ones is lost. -/
def matchEqual (gone added : List Item) : Sorted :=
  let pairIf (i j : Nat) (otherwise : Sorted) : Sorted :=
    match gone[i]?, added[j]? with
    | some g, some a => if sameMode g.2 a.2 then .ofPairs gone added [(i, j)] else otherwise
    | _, _ => otherwise
  let unmatched : Sorted := { gone, added }
  match gone, added with
  | [], _ | _, [] => unmatched
  | [_], [_] => pairIf 0 0 unmatched
  | _, [a] =>
    match likeliest? a.1 gone with
    | some i => pairIf i 0 { gone }
    | none => { gone }
  | [g], _ =>
    match likeliest? g.1 added with
    | some j => pairIf 0 j unmatched
    | none => unmatched
  | _, _ =>
    let pairs := gone.zipIdx.flatMap fun (g, i) => added.zipIdx.map fun (a, j) =>
      { score := nameScore a.1 g.1, added := j, deleted := i : Pair }
    .ofPairs gone added ((choose (pairs.take pairLimit)).map fun p => (p.deleted, p.added))

def matchExact (gone added : List Item) : Sorted :=
  let contents := (gone ++ added).foldl (fun (l : List Blob) (_, b) =>
    if l.any (sameContent b) then l else l ++ [b]) []
  contents.foldl (fun s b =>
    let here := matchEqual (gone.filter fun x => sameContent b x.2) (added.filter fun x => sameContent b x.2)
    { renamed := s.renamed ++ here.renamed, gone := s.gone ++ here.gone, added := s.added ++ here.added }) {}

def leastScore : Nat := 60

def likeScore? (old new : Item) : Option Nat :=
  let isPlain (b : Blob) := !b.isLink && !b.executable
  let a := old.2.content.size + 1
  let b := new.2.content.size + 1
  if !isPlain old.2 || !isPlain new.2 || min a b * 100 / max a b < leastScore then none
  else
    let score := (contentScore old.2 new.2 10000 * 99 + nameScore old.1 new.1 * 100) / 10000
    if score < leastScore then none else some score

/-- Finds renamed files whose content has changed a little, unless there are too many files. -/
def matchAlike (gone added : List Item) : Sorted :=
  if max gone.length added.length > pairLimit then { gone, added }
  else
    let pairs := gone.zipIdx.flatMap fun (g, i) => added.zipIdx.filterMap fun (a, j) =>
      (likeScore? g a).map fun score => { score, added := j, deleted := i : Pair }
    .ofPairs gone added ((choose pairs).map fun p => (p.deleted, p.added))

def matchRenamed (gone added : List Item) : Sorted :=
  if gone.isEmpty || added.isEmpty then { gone, added }
  else
    let exact := matchExact gone added
    let alike := matchAlike exact.gone exact.added
    { alike with renamed := exact.renamed ++ alike.renamed }

def changes (old new : Tree) : List Change :=
  let path (rel : List String) := "/".intercalate rel
  let gone := old.toList.filterMap fun (k, b) => if new.contains k then none else some (path k, b)
  let added := new.toList.filterMap fun (k, b) => if old.contains k then none else some (path k, b)
  let modified := old.toList.filterMap fun (k, a) =>
    match new.get? k with
    | some b => if a == b then none else some (Change.modify (path k) (path k) a b)
    | none => none
  let s := matchRenamed gone added
  let inserts := s.added.map fun (p, b) => Change.insert p b
  let deletes := s.gone.map fun (p, b) => Change.delete p b
  (inserts ++ deletes ++ modified ++ s.renamed).mergeSort fun a b => decide (a.sortKey ≤ b.sortKey)

def changedPaths (old new : Tree) : List String :=
  ((changes old new).filter (·.isShown)).map (·.name)

end Taproom.Git
