import Taproom.Yaml.Fault
import Taproom.Yaml.Resolve
import Taproom.Yaml.Token

/-!
The tree of values that the first document of a YAML text holds. Anchored values are kept in a
table, and an alias names its place there, so that a value may contain itself. Aliases are told
apart by their serial number.
-/

namespace Taproom.Yaml

inductive Node where
  | scalar (line : Nat) (tag : String) (text : String)
  | sequence (line : Nat) (tag : String) (items : List Node)
  | mapping (line : Nat) (tag : String) (entries : List (Node × Node))
  | reference (line : Nat) (name : String) (place : Nat) (serial : Nat)
  deriving Inhabited

namespace Node

def line : Node → Nat
  | scalar line .. | sequence line .. | mapping line .. | reference line .. => line

def text : Node → String
  | scalar _ _ text => text
  | reference _ name .. => name
  | _ => ""

def sameKind : Node → Node → Bool
  | scalar .., scalar .. | sequence .., sequence .. => true
  | mapping .., mapping .. | reference .., reference .. => true
  | _, _ => false

end Node

/-- A value and the anchored values that aliases in it refer to. -/
structure Document where
  root : Node
  anchored : Array Node

/-- Where the tree is being built: the next token, the anchors in force and their values, and the
tag prefixes of the document. -/
structure Builder where
  position : Nat := 0
  names : List (String × Nat) := []
  anchored : Array Node := #[]
  prefixes : List (String × String) := [("!", "!"), ("!!", "tag:yaml.org,2002:")]

namespace Builder

abbrev Build (α : Type) := ReaderT Tokens (StateT Builder (Except String)) α

def peek : Build Token.Kind := fun t s => do
  let token ← t.get s.position
  .ok (token.kind, s)

def lineHere : Build Nat := fun t s => do
  let token ← t.get s.position
  .ok (token.line + 1, s)

def skip : Build Unit := modify fun s => { s with position := s.position + 1 }

def resolveTag (handle suffix : String) : Build String := do
  if handle = "" then return suffix
  match (← get).prefixes.lookup handle with
  | some uri => return uri ++ suffix
  | none => throw "found undefined tag handle"

def properties : Build (Option String × String) := do
  match ← peek with
  | .anchor name =>
    skip
    match ← peek with
    | .tag handle suffix => skip; return (some name, ← resolveTag handle suffix)
    | _ => return (some name, "")
  | .tag handle suffix =>
    skip
    match ← peek with
    | .anchor name => skip; return (some name, ← resolveTag handle suffix)
    | _ => return (none, ← resolveTag handle suffix)
  | _ => return (none, "")

def reserve (anchor : Option String) : Build (Option Nat) := do
  match anchor with
  | none => return none
  | some name =>
    let s ← get
    let place := s.anchored.size
    set { s with names := (name, place) :: s.names, anchored := s.anchored.push default }
    return some place

def settle (place : Option Nat) (node : Node) : Build Node := do
  if let some i := place then
    modify fun s => { s with anchored := s.anchored.setIfInBounds i node }
  return node

def scalarNode (line : Nat) (tag text : String) (plain : Bool) : Node :=
  let tag := shortTag tag
  if tag ≠ "" ∧ tag ≠ "!" then .scalar line tag text
  else if !plain then .scalar line strTag text
  else if text = "<<" then .scalar line mergeTag text
  else .scalar line (resolve text).tag text

def emptyNode (line : Nat) : Node := .scalar line nullTag ""

def collectionTag (tag fallback : String) : String :=
  if tag = "" ∨ tag = "!" then fallback else shortTag tag

mutual

/-- Builds one node. `block` admits block collections, `loose` a sequence without indentation. -/
def node (fuel : Nat) (block loose : Bool) : Build Node :=
  match fuel with
  | 0 => throw "exceeded max depth"
  | fuel + 1 => do
    let line ← lineHere
    match ← peek with
    | .reference name =>
      let serial := (← get).position
      skip
      match (← get).names.lookup name with
      | some place => return .reference line name place serial
      | none => throw s!"unknown anchor '{name}' referenced"
    | _ =>
      let (anchor, tag) ← properties
      let kind ← peek
      match kind with
      | .scalar text plain =>
        skip
        settle (← reserve anchor) (scalarNode line tag text plain)
      | .openBracket =>
        let place ← reserve anchor
        skip
        settle place (.sequence line (collectionTag tag seqTag) (← bracketItems fuel true))
      | .openBrace =>
        let place ← reserve anchor
        skip
        settle place (.mapping line (collectionTag tag mapTag) (← braceEntries fuel true))
      | .dash =>
        if loose then
          let place ← reserve anchor
          settle place (.sequence line (collectionTag tag seqTag) (← looseItems fuel))
        else absent line anchor tag
      | .blockSequence =>
        if block then
          let place ← reserve anchor
          skip
          settle place (.sequence line (collectionTag tag seqTag) (← blockItems fuel))
        else absent line anchor tag
      | .blockMapping =>
        if block then
          let place ← reserve anchor
          skip
          settle place (.mapping line (collectionTag tag mapTag) (← blockEntries fuel))
        else absent line anchor tag
      | _ => absent line anchor tag
where
  absent (line : Nat) (anchor : Option String) (tag : String) : Build Node := do
    if anchor.isNone && tag = "" then throw "did not find expected node content"
    settle (← reserve anchor) (scalarNode line tag "" true)

def blockItems (fuel : Nat) : Build (List Node) :=
  match fuel with
  | 0 => throw "exceeded max depth"
  | fuel + 1 => do
    let line ← lineHere
    match ← peek with
    | .dash =>
      skip
      match ← peek with
      | .dash | .blockEnd => return emptyNode line :: (← blockItems fuel)
      | _ => return (← node fuel true false) :: (← blockItems fuel)
    | .blockEnd => skip; return []
    | _ => throw "did not find expected '-' indicator"

def looseItems (fuel : Nat) : Build (List Node) :=
  match fuel with
  | 0 => throw "exceeded max depth"
  | fuel + 1 => do
    let line ← lineHere
    match ← peek with
    | .dash =>
      skip
      match ← peek with
      | .dash | .key | .value | .blockEnd => return emptyNode line :: (← looseItems fuel)
      | _ => return (← node fuel true false) :: (← looseItems fuel)
    | _ => return []

def blockEntries (fuel : Nat) : Build (List (Node × Node)) :=
  match fuel with
  | 0 => throw "exceeded max depth"
  | fuel + 1 => do
    let line ← lineHere
    match ← peek with
    | .key =>
      skip
      let k ← match ← peek with
        | .key | .value | .blockEnd => pure (emptyNode line)
        | _ => node fuel true true
      let v ← blockValue fuel
      return (k, v) :: (← blockEntries fuel)
    | .blockEnd => skip; return []
    | _ => throw "did not find expected key"

def blockValue (fuel : Nat) : Build Node :=
  match fuel with
  | 0 => throw "exceeded max depth"
  | fuel + 1 => do
    let line ← lineHere
    match ← peek with
    | .value =>
      skip
      match ← peek with
      | .key | .value | .blockEnd => return emptyNode line
      | _ => node fuel true true
    | _ => return emptyNode line

/-- The items between brackets. A key with a value among them is a mapping of one entry. -/
def bracketItems (fuel : Nat) (first : Bool) : Build (List Node) :=
  match fuel with
  | 0 => throw "exceeded max depth"
  | fuel + 1 => do
    match ← peek with
    | .closeBracket => skip; return []
    | kind =>
      if !first then
        if kind = .comma then skip else throw "did not find expected ',' or ']'"
      let line ← lineHere
      match ← peek with
      | .closeBracket => skip; return []
      | .key =>
        skip
        let k ← match ← peek with
          | .value | .comma | .closeBracket => skip; pure (emptyNode line)
          | _ => node fuel false false
        let v ← match ← peek with
          | .value =>
            skip
            match ← peek with
            | .comma | .closeBracket => pure (emptyNode line)
            | _ => node fuel false false
          | _ => pure (emptyNode line)
        return .mapping line mapTag [(k, v)] :: (← bracketItems fuel false)
      | _ => return (← node fuel false false) :: (← bracketItems fuel false)

def braceEntries (fuel : Nat) (first : Bool) : Build (List (Node × Node)) :=
  match fuel with
  | 0 => throw "exceeded max depth"
  | fuel + 1 => do
    match ← peek with
    | .closeBrace => skip; return []
    | kind =>
      if !first then
        if kind = .comma then skip else throw "did not find expected ',' or '\x7d'"
      let line ← lineHere
      match ← peek with
      | .closeBrace => skip; return []
      | .key =>
        skip
        let k ← match ← peek with
          | .value | .comma | .closeBrace => emptyNode <$> lineHere
          | _ => node fuel false false
        let v ← match ← peek with
          | .value =>
            skip
            match ← peek with
            | .comma | .closeBrace => pure (emptyNode line)
            | _ => node fuel false false
          | _ => pure (emptyNode line)
        return (k, v) :: (← braceEntries fuel false)
      | _ =>
        let k ← node fuel false false
        return (k, emptyNode (← lineHere)) :: (← braceEntries fuel false)

end

def directives (fuel : Nat) (versioned : Bool) (handles : List String) : Build Unit :=
  match fuel with
  | 0 => return
  | fuel + 1 => do
    match ← peek with
    | .version major minor =>
      if versioned then throw "found duplicate %YAML directive"
      if major ≠ 1 ∨ minor ≠ 1 then throw "found incompatible YAML document"
      skip
      directives fuel true handles
    | .tagPrefix handle uri =>
      if handles.contains handle then throw "found duplicate %TAG directive"
      modify fun s => { s with prefixes := (handle, uri) :: s.prefixes }
      skip
      directives fuel versioned (handle :: handles)
    | _ => return

def document (fuel : Nat) : Build (Option Node) := do
  match ← peek with
  | .streamEnd => return none
  | .version .. | .tagPrefix .. | .documentStart =>
    directives fuel false []
    match ← peek with
    | .documentStart => skip
    | _ => throw "did not find expected <document start>"
    let line ← lineHere
    let root ← match ← peek with
      | .version .. | .tagPrefix .. | .documentStart | .documentEnd | .streamEnd =>
        pure (emptyNode line)
      | _ => node fuel true false
    let _ ← peek
    return some root
  | _ =>
    let root ← node fuel true false
    let _ ← peek
    return some root

end Builder

def Document.ofText (text : String) : Except Fault Document :=
  let tokens := Tokens.ofText text
  match Builder.document (4 * tokens.list.size + 8) tokens {} with
  | .ok (some root, s) => .ok ⟨root, s.anchored⟩
  | .ok (none, _) => .error .nothing
  | .error problem => .error (.unreadable problem)

end Taproom.Yaml
