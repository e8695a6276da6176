import Taproom.Dict
import Taproom.Text.Base64
import Taproom.Text.Duration
import Taproom.Text.Quoted
import Taproom.Text.Utf8
import Taproom.Yaml.Node

/-!
Reading values of known shape out of a YAML document. A shape says how a node changes the value
that is there already. Nodes of the wrong kind are complained about by line and left out; reading
goes on, so that all complaints are collected.
-/

namespace Taproom.Yaml

structure Scope where
  anchored : Array Node
  followed : List Nat := []

/-- What reading has come to: the complaints, latest first, how many nodes it has looked at, and how
many of those through an alias. -/
structure Progress where
  complaints : List String := []
  visits : Nat := 0
  aliasVisits : Nat := 0

abbrev Read (α : Type) := ReaderT Scope (StateT Progress (Except String)) α

def complain (line : Nat) (text : String) : Read Unit :=
  modify fun p => { p with complaints := s!"line {line}: {text}" :: p.complaints }

namespace Progress

/-- Whether too large a share of the visits came through aliases. Ninety-nine in a hundred are
admitted for up to 400000 visits, ten in a hundred from 4000000 on, and a share in between. -/
def isExcessive (p : Progress) : Bool :=
  let low := 400000
  let high := 4000000
  p.aliasVisits > 100 && p.visits > 1000 &&
    if p.visits ≤ low then 100 * p.aliasVisits > 99 * p.visits
    else if p.visits ≥ high then 10 * p.aliasVisits > p.visits
    else 100 * (high - low) * p.aliasVisits > (99 * (high - low) - 89 * (p.visits - low)) * p.visits

end Progress

def count : Read Unit := do
  let through := if (← read).followed.isEmpty then 0 else 1
  let p ← get
  let p := { p with visits := p.visits + 1, aliasVisits := p.aliasVisits + through }
  if p.isExcessive then throw "document contains excessive aliasing"
  set p

inductive Datum where
  | null
  | bool (b : Bool)
  | int (n : Int)
  | float (whole : Option Int)
  | timestamp
  | text (s : String)

def Datum.ofValue (text : String) : Value → Datum
  | .null => .null
  | .bool b => .bool b
  | .int n => .int n
  | .float w => .float w
  | .timestamp => .timestamp
  | .str => .text text

/-- Resolves a tagged scalar. A tag of the standard repository has to fit the text. -/
def datum (tag text : String) : Read Datum :=
  let misfit (found : String) : Read Datum := throw s!"cannot decode {found} `{text}` as a {tag}"
  if tag = strTag then return .text text
  else if tag = binaryTag then
    match Base64.decode? text with
    | some b => return .text (Utf8.text b.toList)
    | none => throw "!!binary value contains invalid base64 data"
  else if [nullTag, boolTag, intTag, floatTag, timestampTag].contains tag then
    let v := resolveAs (tag = timestampTag) text
    if v.tag = tag then return .ofValue text v
    else
      match v with
      | .int n =>
        if tag = floatTag ∧ n ≤ Text.maxInt then
          return .float (Resolve.word? (n < 0) (Binary.ofNat n.natAbs).floor)
        else misfit v.tag
      | v => misfit v.tag
  else return .text text

/-- A text cut for a complaint when it is longer than ten bytes. A character that the cut would
split is lost, a mark for each of its bytes. -/
def excerpt (text : String) : String :=
  if text.utf8ByteSize ≤ 10 then text
  else
    let rec keep (room : Nat) : List Char → List Char
      | [] => []
      | c :: rest =>
        if c.utf8Size ≤ room then c :: keep (room - c.utf8Size) rest
        else List.replicate room '\ufffd'
    String.ofList (keep 7 text.toList) ++ "..."

def Node.tag : Node → String
  | .scalar _ tag _ | .sequence _ tag _ | .mapping _ tag _ => tag
  | .reference .. => ""

def checkKeys : List (Node × Node) → Read Bool
  | [] => return true
  | (k, _) :: rest => do
    let again := rest.filter fun (j, _) => k.sameKind j && k.text = j.text
    for (j, _) in again do
      complain j.line s!"mapping key {quoted j.text} already defined at line {k.line}"
    let more ← checkKeys rest
    return again.isEmpty && more

/-- Complains that `n` cannot become a value of type `type`, unless it is a mapping with a key
written twice, which is worse. -/
def wrongKind (n : Node) (type : String) : Read Unit := do
  let sound ← match n with
    | .mapping _ _ entries => checkKeys entries
    | _ => pure true
  let value := if n.tag = seqTag ∨ n.tag = mapTag then n.text else s!" `{excerpt n.text}`"
  if sound then complain n.line s!"cannot unmarshal {n.tag}{value} into {type}"

/-- How to read a value of one type. The result says whether the node gave a value. -/
structure Shape (α : Type) where
  type : String
  visit : Node → α → Read (α × Bool)

namespace Shape

variable {α σ : Type}

def run (s : Shape α) (n : Node) (current : α) : Read (α × Bool) := do
  count
  match n with
  | .reference _ name place serial =>
    let scope ← read
    if scope.followed.contains serial then throw s!"anchor '{name}' value contains itself"
    match scope.anchored[place]? with
    | some target =>
      withReader (fun scope => { scope with followed := serial :: scope.followed }) do
        count
        s.visit target current
    | none => return (current, false)
  | n => s.visit n current

/-- A shape for scalars: `use` tells the value, `none` that the scalar is of the wrong kind. -/
def ofScalar (type : String) (use : String → Datum → Option α) : Shape α where
  type := type
  visit n current := do
    match n with
    | .scalar _ tag text =>
      match ← datum tag text with
      | .null => return (current, false)
      | d =>
        match use text d with
        | some v => return (v, true)
        | none => wrongKind n type; return (current, false)
    | n => wrongKind n type; return (current, false)

/-- Text takes any scalar as it is written, and the bytes of a binary one. -/
def text : Shape String :=
  ofScalar "string" fun written d =>
    match d with
    | .text s => some s
    | _ => some written

def int : Shape Int :=
  ofScalar "int" fun _ d =>
    match d with
    | .int n => if n ≤ Text.maxInt.toNat then some n else none
    | .float whole => whole
    | _ => none

def bool : Shape Bool :=
  ofScalar "bool" fun _ d =>
    match d with
    | .bool b => some b
    | .text s =>
      if ["y", "Y", "yes", "Yes", "YES", "on", "On", "ON"].contains s then some true
      else if ["n", "N", "no", "No", "NO", "off", "Off", "OFF"].contains s then some false
      else none
    | _ => none

def duration : Shape Int :=
  ofScalar "time.Duration" fun _ d =>
    match d with
    | .text s => Duration.parse? s
    | _ => none

/-- Handles a node that should be a collection: an empty scalar clears the value. -/
def collection (type : String) (empty : α) (build : Node → α → Read (α × Bool)) : Shape α where
  type := type
  visit n current := do
    match n with
    | .scalar _ tag text =>
      match ← datum tag text with
      | .null => return (empty, true)
      | _ => wrongKind n type; return (current, false)
    | n => build n current

def list (item : Shape α) (fresh : α) : Shape (List α) :=
  collection ("[]" ++ item.type) [] fun n current => do
    match n with
    | .sequence _ _ items =>
      let read ← items.mapM fun i => item.run i fresh
      return (read.filterMap fun (v, good) => if good then some v else none, true)
    | n => wrongKind n ("[]" ++ item.type); return (current, false)

def isMerge : Node → Bool
  | .scalar _ tag text => text = "<<" && (tag = "" || tag = "!" || tag = mergeTag)
  | _ => false

def textKeys (entries : List (Node × Node)) : Read (List String) := do
  let keys ← entries.mapM fun (k, _) => do
    count
    let target ← match k with
      | .reference _ _ place _ => pure ((← read).anchored[place]?.getD k)
      | k => pure k
    match target with
    | .scalar _ tag text =>
      match ← datum tag text with
      | .text s => pure [s]
      | _ => pure []
    | _ => pure []
  return keys.flatten

/-- Reads the entries of a mapping and then of the mappings merged into it. `enter` takes the
value of one key, and is told whether the mapping is merged into another. `taken` holds the keys
that merged mappings may not set again. -/
def entriesLoop (fuel : Nat) (type : String) (enter : Bool → String → Node → Node → σ → Read σ)
    (n : Node) (current : σ) (taken : Option (List String)) :
    Read (σ × Option (List String) × Bool) :=
  match fuel with
  | 0 => throw "exceeded max depth"
  | fuel + 1 => do
    match n with
    | .mapping _ _ entries =>
      if !(← checkKeys entries) then return (current, taken, false)
      let mut state := current
      let mut taken := taken
      let mut merge : Option Node := none
      for (k, v) in entries do
        if isMerge k then merge := some v
        else
          let (name, good) ← text.run k ""
          if good then
            match taken with
            | some names =>
              if !names.contains name then
                taken := some (name :: names)
                state ← enter true name k v state
            | none => state ← enter false name k v state
      match merge with
      | none => return (state, taken, true)
      | some m =>
        let outer := taken
        let names ← match taken with
          | some names => pure names
          | none => textKeys entries
        let wanted := "map merge requires map or sequence of maps as the value"
        let parts ← match m with
          | .sequence _ _ items => pure items
          | .scalar .. => throw wanted
          | m => pure [m]
        let mut names := names
        for p in parts do
          count
          let (target, follow) ← match p with
            | .reference _ name place serial =>
              if (← read).followed.contains serial then
                throw s!"anchor '{name}' value contains itself"
              pure ((← read).anchored[place]?.getD p, [serial])
            | p => pure (p, [])
          match target with
          | .mapping .. =>
            let (s, used, _) ←
              withReader (fun scope => { scope with followed := follow ++ scope.followed }) do
                if !follow.isEmpty then count
                entriesLoop fuel type enter target state (some names)
            state := s
            names := used.getD names
          | _ => throw wanted
        return (state, outer.map fun _ => names, true)
    | n => wrongKind n type; return (current, taken, false)

/-- More than the number of nested merges that a document can hold. -/
def mergeDepth : Nat := 10000

/-- A dictionary gains the entries that could be read. An empty value reads as the fresh one; it
replaces nothing when it is merged or when there were entries before. -/
def dict (item : Shape α) (fresh : α) : Shape (Dict String α) :=
  let type := "map[string]" ++ item.type
  collection type {} fun n current => do
    let enter (merged : Bool) (name : String) (_ v : Node) (d : Dict String α) :
        Read (Dict String α) := do
      let (value, good) ← item.run v fresh
      let scope ← read
      let empty := match v with
        | .reference _ _ place _ => (scope.anchored[place]?.map Node.tag) == some nullTag
        | v => v.tag == nullTag
      let replaces := !merged && current.isEmpty
      return if good || (empty && (replaces || !d.contains name)) then d.insert name value else d
    let (d, _, good) ← entriesLoop mergeDepth type enter n current none
    return (d, good)

structure Field (σ : Type) where
  key : String
  enter : Node → σ → Read σ

def field (key : String) (s : Shape α) (get : σ → α) (put : σ → α → σ) : Field σ where
  key := key
  enter n r := do
    let (v, _) ← s.run n (get r)
    return put r v

def record (type : String) (fields : List (Field σ)) : Shape σ where
  type := type
  visit n current := do
    match n with
    | .scalar _ tag text =>
      match ← datum tag text with
      | .null => return (current, false)
      | _ => wrongKind n type; return (current, false)
    | n =>
      let enter (_ : Bool) (name : String) (k v : Node) (state : σ × List String) :
          Read (σ × List String) := do
        match fields.find? (·.key = name) with
        | some f =>
          if state.2.contains name then
            complain k.line s!"field {name} already set in type {type}"
            return state
          else return (← f.enter v state.1, name :: state.2)
        | none =>
          complain k.line s!"field {name} not found in type {type}"
          return state
      let (state, _, good) ← entriesLoop mergeDepth type enter n (current, []) none
      return (state.1, good)

/-- A value that may be absent: an empty scalar removes it. A collection that is tagged as empty
does not fit. -/
def optional (s : Shape α) (fresh : α) : Shape (Option α) where
  type := s.type
  visit n current := do
    let there : Read (Option α × Bool) := do
      let (v, good) ← s.visit n (current.getD fresh)
      return (some v, good)
    match n with
    | .scalar _ tag text =>
      match ← datum tag text with
      | .null => return (none, true)
      | _ => there
    | n =>
      if n.tag = nullTag then
        wrongKind n ("*" ++ s.type)
        return (current, false)
      else there

end Shape

def readInto {α : Type} (s : Shape α) (start : α) (text : String) : Except Fault α := do
  let doc ← Document.ofText text
  match (s.run doc.root start) { anchored := doc.anchored } { visits := 1 } with
  | .ok ((v, _), p) => if p.complaints.isEmpty then .ok v else .error (.misfit p.complaints.reverse)
  | .error problem => .error (.unreadable problem)

end Taproom.Yaml
