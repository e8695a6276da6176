import Taproom.Yaml.Cursor

/-!
The text of scalars: plain, quoted and block. Each reader returns the text of the scalar and the
place after it.
-/

namespace Taproom.Yaml.Scalar

/-- Blanks and line breaks between two pieces of text. A single break folds to a blank, more
breaks keep all but the first. -/
structure Gap where
  spaces : List Char := []
  firstBreak : List Char := []
  moreBreaks : List Char := []
  broken : Bool := false

def Gap.fold (g : Gap) : List Char :=
  if g.broken then
    match g.firstBreak with
    | '\n' :: _ => if g.moreBreaks.isEmpty then [' '] else g.moreBreaks
    | _ => g.firstBreak ++ g.moreBreaks
  else g.spaces

/-- Reads the blanks and breaks from here on. `tabLimit` is the column below which a tab that
follows a break is refused. -/
def readGap (fuel : Nat) (tabLimit : Int) (g : Gap) (c : Cursor) : Except String (Gap × Cursor) :=
  match fuel with
  | 0 => .ok (g, c)
  | fuel + 1 =>
    match c.peek with
    | none => .ok (g, c)
    | some ch =>
      if isSpace ch then
        if g.broken && decide ((c.column : Int) < tabLimit) && ch == '\t' then
          .error "found a tab character that violates indentation"
        else if g.broken then readGap fuel tabLimit g (c.advance 1)
        else readGap fuel tabLimit { g with spaces := g.spaces ++ [ch] } (c.advance 1)
      else if isBreak ch then
        let (b, c) := c.readBreak
        if g.broken then readGap fuel tabLimit { g with moreBreaks := g.moreBreaks ++ b } c
        else readGap fuel tabLimit { g with spaces := [], firstBreak := b, broken := true } c
      else .ok (g, c)

def plainRun (flow : Bool) : List Char → List Char
  | [] => []
  | ch :: rest =>
    let blankNext := match rest with
      | [] => true
      | d :: _ => isSpace d || isBreak d
    if isSpace ch || isBreak ch then []
    else if ch == ':' && blankNext then []
    else if flow && (ch == ',' || ch == '?' || ch == '[' || ch == ']' || ch == '{' || ch == '}') then []
    else ch :: plainRun flow rest

/-- Reads a plain scalar; the flag tells whether it ended behind a line break. The text is kept
latest first. -/
def plainLoop (fuel : Nat) (flow : Bool) (indent : Int) (text : List Char) (gap : Gap) (c : Cursor) :
    Except String (List Char × Bool × Cursor) :=
  match fuel with
  | 0 => .ok (text, gap.broken, c)
  | fuel + 1 =>
    if c.documentMark '-' || c.documentMark '.' || c.sees '#' then .ok (text, gap.broken, c)
    else
      let run := plainRun flow c.rest
      let (text, gap) := if run.isEmpty then (text, gap) else (run.reverse ++ gap.fold.reverse ++ text, {})
      let c := c.advance run.length
      if !(c.spaceHere || c.breakHere) then .ok (text, gap.broken, c)
      else do
        let (gap, c) ← readGap (c.bound + 1) indent gap c
        if !flow && decide ((c.column : Int) < indent) then .ok (text, gap.broken, c)
        else plainLoop fuel flow indent text gap c

def readPlain (flow : Bool) (indent : Int) (c : Cursor) :
    Except String (List Char × Bool × Cursor) :=
  (plainLoop (c.bound + 1) flow indent [] {} c).map fun (text, broken, c) => (text.reverse, broken, c)

def hexValue? (c : Char) : Option Nat :=
  if c.isDigit then some (c.toNat - '0'.toNat)
  else if 'a' ≤ c && c ≤ 'f' then some (c.toNat - 'a'.toNat + 10)
  else if 'A' ≤ c && c ≤ 'F' then some (c.toNat - 'A'.toNat + 10)
  else none

def hexNumber? (s : List Char) : Option Nat :=
  s.foldlM (fun n c => (hexValue? c).map (16 * n + ·)) 0

def escaped? (c : Char) : Option Char :=
  match c with
  | '0' => some '\x00'
  | 'a' => some '\x07'
  | 'b' => some '\x08'
  | 't' => some '\t'
  | '\t' => some '\t'
  | 'n' => some '\n'
  | 'v' => some '\x0b'
  | 'f' => some '\x0c'
  | 'r' => some '\r'
  | 'e' => some '\x1b'
  | ' ' => some ' '
  | '"' => some '"'
  | '\'' => some '\''
  | '\\' => some '\\'
  | 'N' => some '\u0085'
  | '_' => some '\u00a0'
  | 'L' => some '\u2028'
  | 'P' => some '\u2029'
  | _ => none

def codeLength (c : Char) : Nat :=
  match c with
  | 'x' => 2
  | 'u' => 4
  | 'U' => 8
  | _ => 0

/-- Reads up to the closing quote, a blank or an escaped line break. The flag tells of the last.
The text is kept latest first. -/
def quotedRun (fuel : Nat) (single : Bool) (text : List Char) (c : Cursor) :
    Except String (List Char × Bool × Cursor) :=
  match fuel with
  | 0 => .ok (text, false, c)
  | fuel + 1 =>
    match c.rest with
    | [] => .ok (text, false, c)
    | ch :: rest =>
      if isSpace ch || isBreak ch then .ok (text, false, c)
      else if single then
        match ch, rest with
        | '\'', '\'' :: _ => quotedRun fuel single ('\'' :: text) (c.advance 2)
        | '\'', _ => .ok (text, false, c)
        | _, _ => quotedRun fuel single (ch :: text) (c.advance 1)
      else
        match ch, rest with
        | '"', _ => .ok (text, false, c)
        | '\\', d :: after =>
          if isBreak d then .ok (text, true, (c.advance 1).skipBreak)
          else if codeLength d != 0 then
            let n := codeLength d
            match hexNumber? (after.take n) with
            | some code =>
              if (after.take n).length < n then .error "did not find expected hexdecimal number"
              else if h : code.isValidChar then
                quotedRun fuel single (Char.ofNatAux code h :: text) (c.advance (2 + n))
              else .error "found invalid Unicode character escape code"
            | none => .error "did not find expected hexdecimal number"
          else
            match escaped? d with
            | some e => quotedRun fuel single (e :: text) (c.advance 2)
            | none => .error "found unknown escape character"
        | '\\', [] => .error "found unknown escape character"
        | _, _ => quotedRun fuel single (ch :: text) (c.advance 1)

def quotedLoop (fuel : Nat) (single : Bool) (text : List Char) (c : Cursor) :
    Except String (List Char × Cursor) :=
  match fuel with
  | 0 => .error "found unexpected end of stream"
  | fuel + 1 =>
    if c.documentMark '-' || c.documentMark '.' then .error "found unexpected document indicator"
    else if c.atEnd then .error "found unexpected end of stream"
    else do
      let (text, joined, c) ← quotedRun (c.bound + 1) single text c
      if c.sees (if single then '\'' else '"') then .ok (text.reverse, c.advance 1)
      else
        let (gap, c) ← readGap (c.bound + 1) (-1) { broken := joined } c
        quotedLoop fuel single (gap.fold.reverse ++ text) c

def readQuoted (single : Bool) (c : Cursor) : Except String (List Char × Cursor) :=
  quotedLoop (c.bound + 2) single [] (c.advance 1)

inductive Chomp where
  | strip
  | clip
  | keep
  deriving DecidableEq

def chomp? (c : Option Char) : Option Chomp :=
  match c with
  | some '+' => some .keep
  | some '-' => some .strip
  | _ => none

def blockBreaks (fuel : Nat) (indent widest : Nat) (parent : Int) (breaks : List Char) (c : Cursor) :
    Except String (Nat × List Char × Cursor) :=
  match fuel with
  | 0 => .ok (indent, breaks, c)
  | fuel + 1 =>
    let c := if indent == 0 then c.skipWhile (· == ' ')
      else c.advance ((c.rest.take (indent - c.column)).takeWhile (· == ' ')).length
    let widest := max widest c.column
    if (indent == 0 || c.column < indent) && c.sees '\t' then
      .error "found a tab character where an indentation space is expected"
    else if c.breakHere then
      let (b, c) := c.readBreak
      blockBreaks fuel indent widest parent (breaks ++ b) c
    else if indent == 0 then .ok (max (max widest (parent + 1).toNat) 1, breaks, c)
    else .ok (indent, breaks, c)

structure Block where
  text : List Char := []
  leading : List Char := []
  trailing : List Char := []
  leadingBlank : Bool := false

def blockLines (fuel : Nat) (literal : Bool) (indent : Nat) (parent : Int) (b : Block) (c : Cursor) :
    Except String (Block × Cursor) :=
  match fuel with
  | 0 => .ok (b, c)
  | fuel + 1 =>
    if c.column != indent || c.atEnd then .ok (b, c)
    else do
      let blank := c.spaceHere
      let folds := !literal && !b.leadingBlank && !blank && b.leading.head? == some '\n'
      let glue := if folds then (if b.trailing.isEmpty then [' '] else []) else b.leading
      let (line, c) := c.readWhile fun ch => !isBreak ch
      let (leading, c) := c.readBreak
      let (_, trailing, c) ← blockBreaks (c.bound + 1) indent 0 parent [] c
      blockLines fuel literal indent parent
        { text := line.reverse ++ b.trailing.reverse ++ glue.reverse ++ b.text
          leading := leading, trailing := trailing, leadingBlank := blank } c

def readBlock (literal : Bool) (parent : Int) (c : Cursor) : Except String (List Char × Cursor) := do
  let c := c.advance 1
  let digit? (c : Cursor) : Option Nat := c.peek.bind fun d =>
    if d.isDigit then some (d.toNat - '0'.toNat) else none
  let (chomp, increment, c) ←
    match chomp? c.peek with
    | some chomp =>
      let c := c.advance 1
      match digit? c with
      | some 0 => .error "found an indentation indicator equal to 0"
      | some n => .ok (chomp, n, c.advance 1)
      | none => .ok (chomp, 0, c)
    | none =>
      match digit? c with
      | some 0 => .error "found an indentation indicator equal to 0"
      | some n =>
        let c := c.advance 1
        match chomp? c.peek with
        | some chomp => .ok (chomp, n, c.advance 1)
        | none => .ok (.clip, n, c)
      | none => .ok (.clip, 0, c)
  let c := c.skipWhile isSpace
  let c := if c.sees '#' then c.skipWhile fun ch => !isBreak ch else c
  if !(c.atEnd || c.breakHere) then
    .error "did not find expected comment or line break"
  else
    let c := c.skipBreak
    let indent := if increment == 0 then 0 else (max parent 0).toNat + increment
    let (indent, trailing, c) ← blockBreaks (c.bound + 1) indent 0 parent [] c
    let (b, c) ← blockLines (c.bound + 1) literal indent parent { trailing := trailing } c
    let tail := match chomp with
      | .strip => []
      | .clip => b.leading
      | .keep => b.leading ++ b.trailing
    .ok (b.text.reverse ++ tail, c)

end Taproom.Yaml.Scalar
