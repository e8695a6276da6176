import Taproom.Regex.Stack
import Taproom.Text.Cut
import Taproom.Text.Number

/-!
Reading a pattern from its text, left to right.
-/

namespace Taproom.Regex

def partBefore (whole rest : List Char) : String :=
  String.ofList (whole.take (whole.length - rest.length))

def hexDigit? (c : Char) : Option Nat :=
  if Text.isDigit c then some (c.toNat - 0x30)
  else if 'a' ≤ c && c ≤ 'f' then some (c.toNat - 0x61 + 10)
  else if 'A' ≤ c && c ≤ 'F' then some (c.toNat - 0x41 + 10)
  else none

def isOctal (c : Char) : Bool := '0' ≤ c && c ≤ '7'

/-- Reads hexadecimal digits up to a closing brace. On failure the result is what follows the
character that is to blame. -/
def readHex (seen value : Nat) : List Char → Except (List Char) (Nat × List Char)
  | [] => .error []
  | c :: rest =>
    if c = '\x7d' then (if seen = 0 then .error rest else .ok (value, rest))
    else
      match hexDigit? c with
      | none => .error rest
      | some d =>
        if 16 * value + d > 0x10ffff then .error rest else readHex (seen + 1) (16 * value + d) rest

def readEscape (s : List Char) : Except Fault (Nat × List Char) :=
  let bad (rest : List Char) : Except Fault (Nat × List Char) :=
    .error (.escape (partBefore s rest))
  match s.drop 1 with
  | [] => .error .trailingBackslash
  | c :: rest =>
    let octal : Except Fault (Nat × List Char) :=
      let digits := c :: (rest.take 2).takeWhile isOctal
      .ok (digits.foldl (fun n d => 8 * n + (d.toNat - 0x30)) 0, rest.drop (digits.length - 1))
    if c = '0' then octal
    else if isOctal c then
      match rest with
      | d :: _ => if isOctal d then octal else bad rest
      | [] => bad rest
    else if c = 'x' then
      match rest with
      | [] => bad rest
      | '\x7b' :: more =>
        match readHex 0 0 more with
        | .ok r => .ok r
        | .error rest => bad rest
      | [_] => bad []
      | a :: b :: more =>
        match hexDigit? a, hexDigit? b with
        | some x, some y => .ok (16 * x + y, more)
        | _, _ => bad more
    else if c = 'a' then .ok (0x07, rest)
    else if c = 'f' then .ok (0x0c, rest)
    else if c = 'n' then .ok (0x0a, rest)
    else if c = 'r' then .ok (0x0d, rest)
    else if c = 't' then .ok (0x09, rest)
    else if c = 'v' then .ok (0x0b, rest)
    else if c.toNat < 0x80 && !CharSet.alnum.holds c.toNat then .ok (c.toNat, rest)
    else bad rest

/-- Reads a class that the Unicode standard names, written `\pN` or with a name in braces. -/
def readNamed? (folded : Bool) (s : List Char) : Except Fault (Option (CharSet × List Char)) :=
  match s with
  | '\\' :: p :: t =>
    if p ≠ 'p' ∧ p ≠ 'P' then .ok none
    else
      let close (negative : Bool) (name : List Char) (rest : List Char) :
          Except Fault (Option (CharSet × List Char)) :=
        let (negative, name) := match name with
          | '^' :: name => (!negative, name)
          | name => (negative, name)
        match CharSet.ofName? (String.ofList name) with
        | some set =>
          let set := set.fold folded
          .ok (some (if negative then set.compl else set, rest))
        | none => .error (.charRange (partBefore s rest))
      match t with
      | [] => .error (.charRange (String.ofList s))
      | '\x7b' :: inner =>
        match Text.cut? ['\x7d'] inner with
        | none => .error (.charRange (String.ofList s))
        | some (name, rest) => close (p = 'P') name rest
      | c :: rest => close (p = 'P') [c] rest
  | _ => .ok none

def letterClass? (folded : Bool) : List Char → Option (CharSet × List Char)
  | '\\' :: 'd' :: rest => some (CharSet.digit, rest)
  | '\\' :: 'D' :: rest => some (CharSet.digit.compl, rest)
  | '\\' :: 's' :: rest => some (CharSet.space, rest)
  | '\\' :: 'S' :: rest => some (CharSet.space.compl, rest)
  | '\\' :: 'w' :: rest => some (CharSet.word.fold folded, rest)
  | '\\' :: 'W' :: rest => some ((CharSet.word.fold folded).compl, rest)
  | _ => none

def readPosix? (folded : Bool) (s : List Char) : Except Fault (Option (CharSet × List Char)) :=
  match s with
  | '[' :: ':' :: t =>
    match Text.cut? [':', ']'] t with
    | none => .ok none
    | some (name, rest) =>
      let (negative, bare) := match name with
        | '^' :: name => (true, name)
        | name => (false, name)
      match CharSet.posix.lookup (String.ofList bare) with
      | some set =>
        let set := set.fold folded
        .ok (some (if negative then set.compl else set, rest))
      | none => .error (.charRange (partBefore s rest))
  | _ => .ok none

def readClassChar (whole s : List Char) : Except Fault (Nat × List Char) :=
  match s with
  | [] => .error (.missingBracket (String.ofList whole))
  | '\\' :: _ => readEscape s
  | c :: rest => .ok (c.toNat, rest)

def readMember (folded : Bool) (whole s : List Char) : Except Fault (CharSet × List Char) := do
  if let some r ← readPosix? folded s then return r
  if let some r ← readNamed? folded s then return r
  if let some r := letterClass? folded s then return r
  let (lo, rest) ← readClassChar whole s
  match rest with
  | '-' :: d :: more =>
    if d = ']' then return (CharSet.fold folded [(lo, lo)], rest)
    let (hi, rest) ← readClassChar whole (d :: more)
    if hi < lo then throw (.charRange (partBefore s rest))
    return (CharSet.fold folded [(lo, hi)], rest)
  | _ => return (CharSet.fold folded [(lo, lo)], rest)

/-- Reads the members of a class up to its closing bracket; the first may be a bracket. -/
def readMembers (fuel : Nat) (folded : Bool) (whole s : List Char) (first : Bool)
    (acc : List (Nat × Nat)) : Except Fault (CharSet × List Char) :=
  match fuel with
  | 0 => .error (.missingBracket (String.ofList whole))
  | fuel + 1 =>
    match s, first with
    | ']' :: rest, false => .ok (CharSet.ofRanges acc, rest)
    | _, _ => do
      let (set, rest) ← readMember folded whole s
      readMembers fuel folded whole rest false (acc ++ set)

def readClass (folded : Bool) (s : List Char) : Except Fault (CharSet × List Char) := do
  let (negative, t) := match s.drop 1 with
    | '^' :: t => (true, t)
    | t => (false, t)
  let (set, rest) ← readMembers (s.length + 1) folded s t true []
  return (if negative then set.compl else set, rest)

/-- A count without leading zeros. One that is far too large reads as nothing. -/
def readCount? (s : List Char) : Option (Option Nat × List Char) :=
  let digits := s.takeWhile Text.isDigit
  let rest := s.dropWhile Text.isDigit
  match digits with
  | [] => none
  | '0' :: _ :: _ => none
  | ds => some (if ds.length > 9 then none else some (Text.digitsValue ds), rest)

/-- Reads the bounds of a repetition in braces. The second bound is `none` when it is left open. -/
def readBounds? (s : List Char) : Option (Option Nat × Option (Option Nat) × List Char) := do
  let (least, rest) ← readCount? (s.drop 1)
  match rest with
  | '\x7d' :: rest => some (least, some least, rest)
  | ',' :: '\x7d' :: rest => some (least, none, rest)
  | ',' :: more =>
    let (most, rest) ← readCount? more
    match rest with
    | '\x7d' :: rest => some (least, some most, rest)
    | _ => none
  | _ => none

/-- Repeats the item read last. `before` starts at the operator and `after` follows it; `last` is
where the repetition starts that was read just before. -/
def repeatLast (last : Option (List Char)) (kind : Kind) (least : Nat) (most : Option Nat)
    (before after : List Char) : Build (List Char) := do
  let (short, after) := match after with
    | '?' :: rest => (true, rest)
    | rest => (false, rest)
  match last with
  | some start => throw (.nestedRepetition (partBefore start after))
  | none =>
    let part := partBefore before after
    let short := (← get).options.shortest != short
    Stack.repeatTop kind least most short (.missingArgument part) (.repeatCount part)
    return after

def isNameChar (c : Char) : Bool := CharSet.word.holds c.toNat

/-- Reads the letters that switch options; `s` is the whole group, for blame. The flag tells
whether a group opens. -/
def readOptions (s : List Char) (options : Options) (on saw : Bool) :
    List Char → Except Fault (Options × Bool × List Char)
  | [] => .error (.groupOption (String.ofList s))
  | c :: rest =>
    if c = 'i' then readOptions s { options with foldCase := on } on true rest
    else if c = 'm' then readOptions s { options with multiLine := on } on true rest
    else if c = 's' then readOptions s { options with dotNewline := on } on true rest
    else if c = 'U' then readOptions s { options with shortest := on } on true rest
    else if c = '-' && on then readOptions s options false false rest
    else if (c = ':' || c = ')') && (on || saw) then .ok (options, c = ':', rest)
    else .error (.groupOption (partBefore s rest))

def readGroup (s : List Char) : Build (List Char) := do
  let named : Option (List Char) := match s with
    | '(' :: '?' :: 'P' :: '<' :: c :: t => some (c :: t)
    | '(' :: '?' :: '<' :: t => if t = [] then none else some t
    | _ => none
  match named with
  | some t =>
    match Text.cut? ['>'] t with
    | none => throw (.captureName (String.ofList s))
    | some (name, rest) =>
      if name = [] || !name.all isNameChar then throw (.captureName (partBefore s rest))
      Stack.openGroup true
      return rest
  | none =>
    let (options, opens, rest) ←
      MonadExcept.ofExcept (readOptions s (← get).options true false (s.drop 2))
    if opens then Stack.openGroup false
    modify fun st => { st with options := options }
    return rest

def readEscaped (s : List Char) : Build (List Char) := do
  let folded := (← get).options.foldCase
  match s with
  | '\\' :: 'A' :: rest => Stack.pushKind .startText; return rest
  | '\\' :: 'b' :: rest => Stack.pushKind .boundary; return rest
  | '\\' :: 'B' :: rest => Stack.pushKind .noBoundary; return rest
  | '\\' :: 'C' :: _ => throw (.escape "\\C")
  | '\\' :: 'Q' :: rest =>
    let (text, rest) := (Text.cut? ['\\', 'E'] rest).getD (rest, [])
    for c in text do Stack.pushChar c.toNat
    return rest
  | '\\' :: 'z' :: rest => Stack.pushKind .endText; return rest
  | s =>
    if let some (set, rest) ← MonadExcept.ofExcept (readNamed? folded s) then
      Stack.pushSet set
      return rest
    if let some (set, rest) := letterClass? folded s then
      Stack.pushSet set
      return rest
    let (n, rest) ← MonadExcept.ofExcept (readEscape s)
    Stack.pushChar n
    return rest

def readCounted (last : Option (List Char)) (s : List Char) :
    Build (List Char × Option (List Char)) := do
  match readBounds? s with
  | none => Stack.pushChar 0x7b; return (s.drop 1, none)
  | some (least, most, after) =>
    let bad := Fault.repeatCount (partBefore s after)
    match least, most with
    | some least, none =>
      if least > maxCount then throw bad
      return (← repeatLast last .counted least none s after, some s)
    | some least, some (some most) =>
      if least > maxCount || most > maxCount || least > most then throw bad
      return (← repeatLast last .counted least (some most) s after, some s)
    | _, _ => throw bad

/-- Reads the next piece of a pattern. The result is what follows, and where a repetition starts
if this was one. -/
def readPiece (last : Option (List Char)) (s : List Char) :
    Build (List Char × Option (List Char)) := do
  let options := (← get).options
  match s with
  | [] => return ([], none)
  | '(' :: '?' :: _ => return (← readGroup s, none)
  | '(' :: rest => Stack.openGroup true; return (rest, none)
  | '|' :: rest => Stack.bar; return (rest, none)
  | ')' :: rest => Stack.closeGroup; return (rest, none)
  | '^' :: rest =>
    Stack.pushKind (if options.multiLine then .startLine else .startText)
    return (rest, none)
  | '$' :: rest =>
    if options.multiLine then Stack.pushKind .endLine
    else Stack.push (← Stack.fresh { kind := .endText, options := options, dollar := true } [])
    return (rest, none)
  | '.' :: rest =>
    Stack.pushKind (if options.dotNewline then .any else .anyButNewline)
    return (rest, none)
  | '[' :: _ =>
    let (set, rest) ← MonadExcept.ofExcept (readClass options.foldCase s)
    Stack.pushSet set
    return (rest, none)
  | '*' :: rest => return (← repeatLast last .star 0 none s rest, some s)
  | '+' :: rest => return (← repeatLast last .plus 0 none s rest, some s)
  | '?' :: rest => return (← repeatLast last .quest 0 none s rest, some s)
  | '\x7b' :: _ => readCounted last s
  | '\\' :: _ => return (← readEscaped s, none)
  | c :: rest => Stack.pushChar c.toNat; return (rest, none)

def readPieces (fuel : Nat) (last : Option (List Char)) (s : List Char) : Build Tree :=
  match fuel, s with
  | _, [] => Stack.finish
  | 0, _ => do throw (.nesting (← get).whole)
  | fuel + 1, s => do
    let (rest, last) ← readPiece last s
    readPieces fuel last rest

def parse (s : String) : Except Fault Regex :=
  ((readPieces (s.toList.length + 1) none s.toList).run { whole := s }).map fun (t, _) => t.toRegex

/-- Replaces what a pattern matches. A text stays as it is if there is no such pattern. -/
def replaceAll (pattern : String) (new : List Char → List Char) (s : String) : String :=
  match parse pattern with
  | .ok r => String.ofList (r.replaceIn true new s.toList)
  | .error _ => s

end Taproom.Regex
