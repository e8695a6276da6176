import Taproom.Yaml.Scalar

/-!
The tokens of a YAML text. Blocks are opened and closed by the columns where keys and dashes
stand; a key in front of a colon is only known once the colon is met, so its token is put in
place behind the fact.
-/

namespace Taproom.Yaml

inductive Token.Kind where
  | streamEnd
  | version (major minor : Nat)
  | tagPrefix (handle uri : String)
  | documentStart
  | documentEnd
  | blockSequence
  | blockMapping
  | blockEnd
  | openBracket
  | closeBracket
  | openBrace
  | closeBrace
  | dash
  | comma
  | key
  | value
  | reference (name : String)
  | anchor (name : String)
  | tag (handle suffix : String)
  | scalar (text : String) (plain : Bool)
  deriving DecidableEq, Repr

structure Token where
  kind : Token.Kind
  line : Nat
  deriving Repr

/-- A place where a key may have started, should a colon follow on the same line. -/
structure KeyPlace where
  required : Bool
  token : Nat
  line : Nat
  column : Nat
  index : Nat

/-- The state of reading. The tokens are kept latest first. There is one key place for each open
bracket and one outside. -/
structure Lexer where
  cursor : Cursor
  tokens : List Token := []
  count : Nat := 0
  indent : Int := -1
  indents : List Int := []
  keyAllowed : Bool := true
  keys : List (Option KeyPlace) := [none]
  finished : Bool := false

namespace Lexer

def inFlow (s : Lexer) : Bool := s.keys.length > 1

def emit (s : Lexer) (kind : Token.Kind) (line : Nat) : Lexer :=
  { s with tokens := ⟨kind, line⟩ :: s.tokens, count := s.count + 1 }

def insert (s : Lexer) (place : Nat) (kind : Token.Kind) (line : Nat) : Lexer :=
  let after := s.count - place
  { s with
    tokens := s.tokens.take after ++ ⟨kind, line⟩ :: s.tokens.drop after
    count := s.count + 1 }

def take (s : Lexer) (kind : Token.Kind) (n : Nat) : Lexer :=
  { s.emit kind s.cursor.line with cursor := s.cursor.advance n }

def commentReach : Nat := 512

/-- After a comment, goes on with the comments on the lines below, whatever stands before them. -/
def skipComments (fuel : Nat) (c : Cursor) : Cursor :=
  match fuel with
  | 0 => c
  | fuel + 1 =>
    let c := c.skipWhile fun ch => !isBreak ch
    let gap := c.rest.takeWhile fun ch => isSpace ch || isBreak ch
    if gap.length < commentReach && (c.rest.drop gap.length).head? == some '#' then
      let rec past (fuel : Nat) (c : Cursor) : Cursor :=
        match fuel with
        | 0 => c
        | fuel + 1 =>
          if c.breakHere then past fuel c.skipBreak
          else if c.spaceHere then past fuel (c.advance 1)
          else c
      skipComments fuel (past (gap.length + 1) c)
    else c

/-- Moves over blanks, comments and line breaks. A tab may not indent a block; a byte order mark may
start a line. -/
def toNext (fuel : Nat) (s : Lexer) : Lexer :=
  match fuel with
  | 0 => s
  | fuel + 1 =>
    let c := if s.cursor.column == 0 && s.cursor.sees '\ufeff' then s.cursor.advance 1 else s.cursor
    let c := c.skipWhile fun ch =>
      ch == ' ' || ((s.inFlow || !s.keyAllowed) && ch == '\t')
    let c := if c.sees '#' then skipComments (c.bound + 1) c else c
    if c.breakHere then
      toNext fuel { s with cursor := c.skipBreak, keyAllowed := s.keyAllowed || !s.inFlow }
    else { s with cursor := c }

def closeBlocks (s : Lexer) (column : Int) : Lexer :=
  if s.inFlow then s
  else
    let rec go (indent : Int) (indents : List Int) (s : Lexer) : Lexer :=
      if column < indent then
        let s := s.emit .blockEnd s.cursor.line
        match indents with
        | [] => { s with indent := -1, indents := [] }
        | outer :: rest => go outer rest s
      else { s with indent := indent, indents := indents }
    termination_by indents.length
    go s.indent s.indents s

/-- Opens a block at `column` unless one stands there, its token at place `at?` or last. -/
def openBlock (s : Lexer) (column : Nat) (place : Option Nat) (kind : Token.Kind) (line : Nat) :
    Lexer :=
  if s.inFlow || !decide (s.indent < (column : Int)) then s
  else
    let s := match place with
      | some i => s.insert i kind line
      | none => s.emit kind line
    { s with indents := s.indent :: s.indents, indent := column }

def dropKey (s : Lexer) : Except String Lexer :=
  match s.keys with
  | some k :: rest =>
    if k.required then .error "could not find expected ':'"
    else .ok { s with keys := none :: rest }
  | _ => .ok s

def noteKey (s : Lexer) : Except String Lexer :=
  if s.keyAllowed then do
    let s ← s.dropKey
    let k : KeyPlace :=
      { required := !s.inFlow && s.indent == (s.cursor.column : Int)
        token := s.count
        line := s.cursor.line, column := s.cursor.column, index := s.cursor.index }
    .ok { s with keys := some k :: s.keys.tail }
  else .ok s

/-- Whether the line goes on, and not too long, since the key place. -/
def isNear (s : Lexer) (k : KeyPlace) : Bool :=
  k.line == s.cursor.line && s.cursor.index ≤ k.index + 1024

def openKeys (s : Lexer) : List KeyPlace := s.keys.filterMap fun k? => k?.filter s.isNear

def pendingKey (s : Lexer) : Except String (Option KeyPlace) :=
  match s.keys with
  | some k :: _ =>
    if !s.isNear k then
      if k.required then .error "could not find expected ':'" else .ok none
    else .ok (some k)
  | _ => .ok none

def maxDepth : Nat := 10000

def openFlow (s : Lexer) (kind : Token.Kind) : Except String Lexer := do
  let s ← s.noteKey
  if s.keys.length > maxDepth then throw "exceeded max depth of 10000"
  .ok ({ s with keys := none :: s.keys, keyAllowed := true }.take kind 1)

def closeFlow (s : Lexer) (kind : Token.Kind) : Except String Lexer := do
  let s ← s.dropKey
  let keys := match s.keys with
    | _ :: k :: rest => k :: rest
    | keys => keys
  .ok ({ s with keys := keys, keyAllowed := false }.take kind 1)

def readComma (s : Lexer) : Except String Lexer := do
  let s ← s.dropKey
  .ok ({ s with keyAllowed := true }.take .comma 1)

def readDash (s : Lexer) : Except String Lexer := do
  if !s.inFlow && !s.keyAllowed then
    throw "block sequence entries are not allowed in this context"
  let s := s.openBlock s.cursor.column none .blockSequence s.cursor.line
  let s ← s.dropKey
  .ok ({ s with keyAllowed := true }.take .dash 1)

def readKeyMark (s : Lexer) : Except String Lexer := do
  if !s.inFlow && !s.keyAllowed then
    throw "mapping keys are not allowed in this context"
  let s := s.openBlock s.cursor.column none .blockMapping s.cursor.line
  let s ← s.dropKey
  .ok ({ s with keyAllowed := !s.inFlow }.take .key 1)

def readColon (s : Lexer) : Except String Lexer := do
  match ← s.pendingKey with
  | some k =>
    let s := s.insert k.token .key k.line
    let s := s.openBlock k.column (some k.token) .blockMapping k.line
    .ok ({ s with keys := none :: s.keys.tail, keyAllowed := false }.take .value 1)
  | none =>
    if !s.inFlow && !s.keyAllowed then
      throw "mapping values are not allowed in this context"
    let s := s.openBlock s.cursor.column none .blockMapping s.cursor.line
    .ok ({ s with keyAllowed := !s.inFlow }.take .value 1)

def readName (s : Lexer) (kind : String → Token.Kind) : Except String Lexer := do
  let s ← s.noteKey
  let line := s.cursor.line
  let (name, c) := (s.cursor.advance 1).readWhile isNameChar
  let ends := c.blankAt 0 ||
    c.peek.any fun ch => ['?', ':', ',', ']', '}', '%', '@', '`'].contains ch
  if name.isEmpty || !ends then
    throw "did not find expected alphabetic or numeric character"
  .ok ({ s with keyAllowed := false, cursor := c }.emit (kind (String.ofList name)) line)

def isUriChar (c : Char) : Bool :=
  isNameChar c || [';', '/', '?', ':', '@', '&', '=', '+', '$', ',', '.', '!', '~', '*', '\'', '(',
    ')', '[', ']', '%'].contains c

def unescapeUri (fuel : Nat) (s : List Char) (bytes : List UInt8) : Option (List UInt8) :=
  match fuel with
  | 0 => some bytes
  | fuel + 1 =>
    match s with
    | [] => some bytes
    | '%' :: a :: b :: rest =>
      match Scalar.hexNumber? [a, b] with
      | some n => unescapeUri fuel rest (bytes ++ [n.toUInt8])
      | none => none
    | '%' :: _ => none
    | c :: rest => unescapeUri fuel rest (bytes ++ (String.singleton c).toUTF8.toList)

def readUri (c : Cursor) (needed : Bool) : Except String (String × Cursor) := do
  let (raw, c) := c.readWhile isUriChar
  if raw.isEmpty && needed then throw "did not find expected tag URI"
  match (unescapeUri (raw.length + 1) raw []).bind fun b => String.fromUTF8? ⟨b.toArray⟩ with
  | some text => .ok (text, c)
  | none => throw "did not find URI escaped octet"

def readTag (s : Lexer) : Except String Lexer := do
  let s ← s.noteKey
  let line := s.cursor.line
  let c := s.cursor
  let (handle, suffix, c) ←
    if c.peekAt 1 == some '<' then do
      let (suffix, c) ← readUri (c.advance 2) true
      if !c.sees '>' then throw "did not find the expected '>'"
      pure ("", suffix, c.advance 1)
    else do
      let (name, c) := (c.advance 1).readWhile isNameChar
      if c.sees '!' then
        let handle := "!" ++ String.ofList name ++ "!"
        let (suffix, c) ← readUri (c.advance 1) true
        pure (handle, suffix, c)
      else
        let (more, c) ← readUri c false
        let suffix := String.ofList name ++ more
        pure (if suffix = "" then ("", "!", c) else ("!", suffix, c))
  if !c.blankAt 0 then throw "did not find expected whitespace or line break"
  .ok ({ s with keyAllowed := false, cursor := c }.emit (.tag handle suffix) line)

def endDirective (c : Cursor) : Except String Cursor := do
  let c := c.skipWhile isSpace
  let c := if c.sees '#' then c.skipWhile fun ch => !isBreak ch else c
  if !(c.atEnd || c.breakHere) then throw "did not find expected comment or line break"
  .ok c.skipBreak

def readDirective (s : Lexer) : Except String Lexer := do
  let s ← (s.closeBlocks (-1)).dropKey
  let s := { s with keyAllowed := false }
  let line := s.cursor.line
  let (name, c) := (s.cursor.advance 1).readWhile isNameChar
  if name.isEmpty then throw "could not find expected directive name"
  if !c.blankAt 0 then throw "found unexpected non-alphabetical character"
  let number (c : Cursor) : Except String (Nat × Cursor) := do
    let (digits, c) := c.readWhile Char.isDigit
    if digits.isEmpty then throw "did not find expected version number"
    if digits.length > 2 then throw "found extremely long version number"
    .ok (digits.foldl (fun n d => 10 * n + (d.toNat - '0'.toNat)) 0, c)
  if name == "YAML".toList then
    let (major, c) ← number (c.skipWhile isSpace)
    if !c.sees '.' then throw "did not find expected digit or '.' character"
    let (minor, c) ← number (c.advance 1)
    let c ← endDirective c
    .ok ({ s with cursor := c }.emit (.version major minor) line)
  else if name == "TAG".toList then
    let c := c.skipWhile isSpace
    if !c.sees '!' then throw "did not find expected '!'"
    let (word, c) := (c.advance 1).readWhile isNameChar
    let (handle, c) ←
      if c.sees '!' then pure ("!" ++ String.ofList word ++ "!", c.advance 1)
      else if word.isEmpty then pure ("!", c)
      else throw "did not find expected '!'"
    if !c.spaceHere then throw "did not find expected whitespace"
    let (uri, c) ← readUri (c.skipWhile isSpace) true
    if !c.blankAt 0 then throw "did not find expected whitespace or line break"
    let c ← endDirective c
    .ok ({ s with cursor := c }.emit (.tagPrefix handle uri) line)
  else throw "found unknown directive name"

def readMark (s : Lexer) (kind : Token.Kind) : Except String Lexer := do
  let s ← (s.closeBlocks (-1)).dropKey
  .ok ({ s with keyAllowed := false }.take kind 3)

def readBlockScalar (s : Lexer) (literal : Bool) : Except String Lexer := do
  let s ← s.dropKey
  let line := s.cursor.line
  let (text, c) ← Scalar.readBlock literal s.indent s.cursor
  .ok ({ s with keyAllowed := true, cursor := c }.emit (.scalar (String.ofList text) false) line)

def readQuotedScalar (s : Lexer) (single : Bool) : Except String Lexer := do
  let s ← s.noteKey
  let line := s.cursor.line
  let (text, c) ← Scalar.readQuoted single s.cursor
  .ok ({ s with keyAllowed := false, cursor := c }.emit (.scalar (String.ofList text) false) line)

def readPlainScalar (s : Lexer) : Except String Lexer := do
  let s ← s.noteKey
  let line := s.cursor.line
  let (text, broken, c) ← Scalar.readPlain s.inFlow (s.indent + 1) s.cursor
  .ok ({ s with keyAllowed := broken, cursor := c }.emit (.scalar (String.ofList text) true) line)

def finish (s : Lexer) : Except String Lexer := do
  let c := if s.cursor.column == 0 then s.cursor
    else { s.cursor with column := 0, line := s.cursor.line + 1 }
  let s ← ({ s with cursor := c }.closeBlocks (-1)).dropKey
  .ok { s.emit .streamEnd c.line with keyAllowed := false, finished := true }

def isIndicator (c : Char) : Bool :=
  ['-', '?', ':', ',', '[', ']', '{', '}', '#', '&', '*', '!', '|', '>', '\'', '"', '%', '@',
    '`'].contains c

def pastComment (s : Lexer) : Lexer :=
  let sameLine := match s.tokens.head?.map Token.kind with
    | some .dash => false
    | some (.scalar ..) => !s.keyAllowed
    | _ => true
  let blanks := (s.cursor.rest.takeWhile isSpace).length
  let c := s.cursor.advance blanks
  if sameLine && blanks < commentReach && c.sees '#' then
    { s with cursor := c.skipWhile fun ch => !isBreak ch }
  else s

def readContent (s : Lexer) (ch : Char) : Except String Lexer :=
  let c := s.cursor
  if ch == '[' then s.openFlow .openBracket
  else if ch == '{' then s.openFlow .openBrace
  else if ch == ']' then s.closeFlow .closeBracket
  else if ch == '}' then s.closeFlow .closeBrace
  else if ch == ',' then s.readComma
  else if ch == '-' && c.blankAt 1 then s.readDash
  else if ch == '?' && (s.inFlow || c.blankAt 1) then s.readKeyMark
  else if ch == ':' && (s.inFlow || c.blankAt 1) then s.readColon
  else if ch == '*' then s.readName .reference
  else if ch == '&' then s.readName .anchor
  else if ch == '!' then s.readTag
  else if ch == '|' && !s.inFlow then s.readBlockScalar true
  else if ch == '>' && !s.inFlow then s.readBlockScalar false
  else if ch == '\'' then s.readQuotedScalar true
  else if ch == '"' then s.readQuotedScalar false
  else if !(isSpace ch || isIndicator ch) || ch == '-' ||
      (!s.inFlow && (ch == '?' || ch == ':') && !c.blankAt 1) then s.readPlainScalar
  else .error "found character that cannot start any token"

def next (s : Lexer) : Except String Lexer :=
  let s := s.toNext (s.cursor.bound + 1)
  let s := s.closeBlocks s.cursor.column
  let c := s.cursor
  match c.peek with
  | none => s.finish
  | some ch =>
    if c.column == 0 && ch == '%' then s.readDirective
    else if c.documentMark '-' then s.readMark .documentStart
    else if c.documentMark '.' then s.readMark .documentEnd
    else (s.readContent ch).bind fun s =>
      if s.indents.length > maxDepth then .error "exceeded max depth of 10000" else .ok s.pastComment

end Lexer

/-- The tokens of a text, as far as they can be read, and the problem that stopped the reading.
`undecided` are those that could still have turned out to be keys. -/
structure Tokens where
  list : Array Token
  problem : Option String
  undecided : List Nat := []

namespace Tokens

def pieceSize : Nat := 512

/-- How many characters stand before the piece that holds the first character which is not allowed,
if there is one. The piece that is being filled starts after `start` characters, `taken` are taken
in so far, and `room` bytes are free. -/
def soundLength? (start taken room : Nat) : List Char → Option Nat
  | [] => none
  | c :: rest =>
    let (start, room) := if c.utf8Size ≤ room then (start, room) else (taken, pieceSize)
    if isAllowed c then soundLength? start (taken + 1) (room - c.utf8Size) rest else some start

/-- Reads all tokens, or those that need no character behind the first `sound` ones. -/
def collect (fuel : Nat) (sound : Option Nat) (s : Lexer) : Tokens :=
  let found (_ : Unit) : Array Token := s.tokens.reverse.toArray
  let stop (problem : String) : Tokens := ⟨found (), some problem, s.openKeys.map KeyPlace.token⟩
  match fuel with
  | 0 => ⟨found (), none, []⟩
  | fuel + 1 =>
    if s.finished then ⟨found (), none, []⟩
    else
      match s.next with
      | .ok after =>
        if sound.any (· < after.cursor.index + 2) then stop "control characters are not allowed"
        else collect fuel sound after
      | .error problem => stop problem

def ofText (text : String) : Tokens :=
  let (room, chars) := match text.toList with
    | '\ufeff' :: rest => (pieceSize - 3, rest)
    | chars => (pieceSize, chars)
  collect (chars.length + 2) (soundLength? 0 0 room chars) { cursor := .start chars }

/-- Two tokens are read beyond the one looked at, and more while that may be a key, so a problem
there shows already here. -/
def get (t : Tokens) (i : Nat) : Except String Token :=
  match t.problem with
  | some problem =>
    if i + 2 < t.list.size && !t.undecided.contains i then
      match t.list[i]? with
      | some token => .ok token
      | none => .error problem
    else .error problem
  | none => .ok (t.list[i]?.getD ⟨.streamEnd, 0⟩)

end Tokens

end Taproom.Yaml
