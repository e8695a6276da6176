import Taproom.Text.Cut
import Taproom.Text.Number
import Taproom.Text.Quoted
import Taproom.Xml.Name

/-!
The tags and the text of an XML document. Attributes, comments, instructions and declarations have
to be well formed and are then forgotten.
-/

namespace Taproom.Xml

inductive Token where
  | opening (name : List Char)
  | closing (name : List Char)
  | text (s : List Char)
  deriving DecidableEq, Repr

inductive Fault where
  | ended
  | malformed (line : Nat) (problem : String)
  | unsupported (problem : String)
  deriving DecidableEq, Repr

def Fault.message : Fault → String
  | ended => "EOF"
  | malformed line problem => s!"XML syntax error on line {line}: {problem}"
  | unsupported problem => s!"xml: {problem}"

structure Place where
  rest : List Char
  line : Nat := 1

abbrev Read (α : Type) := StateT Place (Except Fault) α

namespace Read

def fail {α : Type} (problem : String) : Read α := do
  throw (.malformed (← get).line problem)

def step (p : Place) (c : Char) (rest : List Char) : Place :=
  { rest, line := if c = '\n' then p.line + 1 else p.line }

def next : Read Char := do
  let p ← get
  match p.rest with
  | c :: rest => set (step p c rest); return c
  | [] => fail "unexpected EOF"

def peek? : Read (Option Char) := return (← get).rest.head?

def takeWhile (p : Char → Bool) : Read (List Char) := do
  let s := (← get).rest.takeWhile p
  modify fun place =>
    { rest := place.rest.dropWhile p, line := place.line + s.count '\n' }
  return s

def isSpace (c : Char) : Bool := c = ' ' || c = '\t' || c = '\n' || c = '\r'

def space : Read Unit := do
  let _ ← takeWhile isSpace

def past (stop : List Char) : Read (List Char) := do
  let p ← get
  match Text.cut? stop p.rest with
  | some (before, rest) =>
    set { rest, line := p.line + before.count '\n' : Place }
    return before
  | none =>
    set { rest := [], line := p.line + p.rest.count '\n' : Place }
    fail "unexpected EOF"

/-- Reads the characters of a name, of which none may be there. They have to be followed by
something. -/
def nameChars : Read (List Char) := do
  let s ← takeWhile isNameChar
  if (← peek?).isNone then fail "unexpected EOF"
  return s

/-- Reads a name with at most one colon and forgets what stands before that. `problem` tells what
is wrong when there is no name. -/
def name (problem : String) : Read (List Char × List Char) := do
  let s ← nameChars
  if s.isEmpty then fail problem
  if !isName s then fail ("invalid XML name: " ++ String.ofList s)
  if s.count ':' > 1 then fail problem
  match Text.cut? [':'] s with
  | some (space, rest) => return if space.isEmpty || rest.isEmpty then ([], s) else (space, rest)
  | none => return ([], s)

def entity? : List Char → Option Char
  | ['l', 't'] => some '<'
  | ['g', 't'] => some '>'
  | ['a', 'm', 'p'] => some '&'
  | ['q', 'u', 'o', 't'] => some '"'
  | ['a', 'p', 'o', 's'] => some '\''
  | _ => none

def charOf (code : Nat) : Char :=
  if h : code.isValidChar then Char.ofNatAux code h else '�'

def hexDigit? (c : Char) : Option Nat :=
  if Text.isDigit c then some (c.toNat - 48)
  else if 'a' ≤ c && c ≤ 'f' then some (c.toNat - 87)
  else if 'A' ≤ c && c ≤ 'F' then some (c.toNat - 55)
  else none

def codeOf? (base : Nat) (digits : List Char) : Option Char :=
  if digits.isEmpty then none
  else
    let code := digits.foldl (fun n c => base * n + (hexDigit? c).getD 0) 0
    if code ≤ 0x10ffff then some (charOf code) else none

def reference : Read Char := do
  let known (written : List Char) (meant : Option Char) : Read Char := do
    match ← peek? with
    | some ';' =>
      let _ ← next
      match meant with
      | some c => return c
      | none => fail ("invalid character entity &" ++ String.ofList written ++ ";")
    | _ => fail ("invalid character entity &" ++ String.ofList written ++ " (no semicolon)")
  match ← peek? with
  | none => fail "unexpected EOF"
  | some '#' =>
    let _ ← next
    let base ← match ← peek? with
      | some 'x' => do
        let _ ← next
        pure 16
      | _ => pure 10
    let digits ← takeWhile fun c => (hexDigit? c).any (· < base)
    if (← peek?).isNone then fail "unexpected EOF"
    known (['#'] ++ (if base = 16 then ['x'] else []) ++ digits) (codeOf? base digits)
  | some _ =>
    let name ← nameChars
    known name (entity? name)

def isAllowed (c : Char) : Bool :=
  let n := c.toNat
  n = 0x09 || n = 0x0a || n = 0x0d || (0x20 ≤ n && n ≤ 0xfffd) || 0x10000 ≤ n

def checkChars (s : List Char) : Read Unit := do
  match s.find? (!isAllowed ·) with
  | some c => fail ("illegal character code U+" ++ (String.ofList (Text.hex 4 c.toNat)).map Char.toUpper)
  | none => return

/-- Reads text up to a tag, or up to a quote. A carriage return, alone or before a line feed, is a
line feed. `before` holds the two last characters as they were written, the last one first. -/
def textLoop (fuel : Nat) (quote : Option Char) (before : List Char) (acc : List Char) :
    Read (List Char) :=
  match fuel with
  | 0 => return acc.reverse
  | fuel + 1 => do
    let p ← get
    match p.rest with
    | [] => return acc.reverse
    | c :: rest =>
      if quote.isNone && c = '>' && before = [']', ']'] then
        set (step p c rest)
        fail "unescaped ]]> not in CDATA section"
      else if c = '<' then
        if quote.isSome then
          set (step p c rest)
          fail "unescaped < inside quoted string"
        else return acc.reverse
      else
        set (step p c rest)
        if quote = some c then return acc.reverse
        else if c = '&' then
          let meant ← reference
          textLoop fuel quote [] (meant :: acc)
        else
          let acc :=
            if c = '\r' then '\n' :: acc
            else if c = '\n' && before.head? = some '\r' then acc
            else c :: acc
          textLoop fuel quote (c :: before.take 1) acc

def text (fuel : Nat) (quote : Option Char) : Read (List Char) := do
  let s ← textLoop fuel quote [] []
  checkChars s
  return s

def unifyBreaks : List Char → List Char
  | '\r' :: '\n' :: rest => '\n' :: unifyBreaks rest
  | '\r' :: rest => '\n' :: unifyBreaks rest
  | c :: rest => c :: unifyBreaks rest
  | [] => []

def verbatim : Read (List Char) := do
  let p ← get
  match Text.cut? [']', ']', '>'] p.rest with
  | some (s, rest) =>
    set { rest, line := p.line + s.count '\n' : Place }
    let s := unifyBreaks s
    checkChars s
    return s
  | none =>
    set { rest := [], line := p.line + p.rest.count '\n' : Place }
    fail "unexpected EOF in CDATA section"

def parameter (fuel : Nat) (name s : List Char) : List Char :=
  match fuel with
  | 0 => []
  | fuel + 1 =>
    match Text.cut? (name ++ ['=']) s with
    | some (_, q :: rest) =>
      if q = '"' || q = '\'' then ((Text.cut? [q] rest).map (·.1)).getD []
      else parameter fuel name rest
    | _ => []

/-- Reads an instruction. The declaration of a document admits one version and one encoding. -/
def instruction : Read Unit := do
  let target ← nameChars
  if target.isEmpty then fail "expected target name after <?"
  if !isName target then fail ("invalid XML name: " ++ String.ofList target)
  space
  let content ← past ['?', '>']
  if target = "xml".toList then
    let version := String.ofList (parameter (content.length + 1) "version".toList content)
    let encoding := String.ofList (parameter (content.length + 1) "encoding".toList content)
    if version ≠ "" ∧ version ≠ "1.0" then
      throw (.unsupported s!"unsupported version {quoted version}; only version 1.0 is supported")
    if encoding ≠ "" ∧ encoding.toList.map Char.toLower ≠ "utf-8".toList then
      throw (.unsupported
        s!"encoding {quoted encoding} declared but Decoder.CharsetReader is nil")

def comment : Read Unit := do
  let _ ← past ['-', '-']
  if (← next) ≠ '>' then fail "invalid sequence \"--\" not allowed in comments"

def declaration (fuel : Nat) (quote : Option Char) (depth : Nat) : Read Unit :=
  match fuel with
  | 0 => fail "unexpected EOF"
  | fuel + 1 => do
    let c ← next
    match quote with
    | some q => declaration fuel (if c = q then none else quote) depth
    | none =>
      if c = '>' then
        if depth = 0 then return else declaration fuel none (depth - 1)
      else if c = '"' || c = '\'' then declaration fuel (some c) depth
      else if c = '<' then
        match Text.dropPrefix? ['!', '-', '-'] (← get).rest with
        | some rest =>
          modify fun p => { p with rest }
          let _ ← past ['-', '-', '>']
          declaration fuel none depth
        | none => declaration fuel none (depth + 1)
      else declaration fuel none depth

def attributes (fuel : Nat) : Read Bool :=
  match fuel with
  | 0 => fail "unexpected EOF"
  | fuel + 1 => do
    space
    match ← peek? with
    | none => fail "unexpected EOF"
    | some '>' =>
      let _ ← next
      return false
    | some '/' =>
      let _ ← next
      if (← next) ≠ '>' then fail "expected /> in element"
      return true
    | some _ =>
      let _ ← name "expected attribute name in element"
      space
      if (← next) ≠ '=' then fail "attribute name without = in element"
      space
      let q ← next
      if q = '"' || q = '\'' then
        let _ ← text fuel (some q)
        attributes fuel
      else fail "unquoted or missing attribute value in element"

end Read

/-- A name as it is written: the part before a colon, and the part behind it. -/
abbrev QName := List Char × List Char

open Read in
/-- Reads the next part of a document, in which the elements of `opened` are still open. There are
fewer than `fuel` characters. -/
def piece (fuel : Nat) (opened : List QName) : Read (List Token × List QName) := do
  match (← get).rest with
  | [] => if opened.isEmpty then throw .ended else fail "unexpected EOF"
  | '<' :: rest =>
    modify fun p => { p with rest }
    match ← peek? with
    | none => fail "unexpected EOF"
    | some '/' =>
      let _ ← next
      let (space', local') ← name "expected element name after </"
      space
      let shown := String.ofList local'
      if (← next) ≠ '>' then fail ("invalid characters between </" ++ shown ++ " and >")
      match opened with
      | [] => fail ("unexpected end element </" ++ shown ++ ">")
      | (outerSpace, outer) :: opened =>
        if outer ≠ local' then
          fail ("element <" ++ String.ofList outer ++ "> closed by </" ++ shown ++ ">")
        if outerSpace ≠ space' then
          let spaceText := if space'.isEmpty then "\"\"" else String.ofList space'
          fail ("element <" ++ String.ofList outer ++ "> in space " ++ String.ofList outerSpace ++
            " closed by </" ++ shown ++ "> in space " ++ spaceText)
        return ([.closing local'], opened)
    | some '?' =>
      let _ ← next
      instruction
      return ([], opened)
    | some '!' =>
      let _ ← next
      match ← next with
      | '-' =>
        if (← next) ≠ '-' then fail "invalid sequence <!- not part of <!--"
        comment
        return ([], opened)
      | '[' =>
        for c in "CDATA[".toList do
          if (← next) ≠ c then fail "invalid <![ sequence"
        return ([.text (← verbatim)], opened)
      | _ =>
        declaration fuel none 0
        return ([], opened)
    | some _ =>
      let full ← name "expected element name after <"
      if ← attributes fuel then return ([.opening full.2, .closing full.2], opened)
      else return ([.opening full.2], full :: opened)
  | _ => return ([.text (← text fuel none)], opened)

def tokens (fuel : Nat) (opened : List QName) (p : Place) (acc : List Token) : List Token × Fault :=
  match fuel with
  | 0 => (acc.reverse, .ended)
  | fuel + 1 =>
    match (piece (fuel + 1) opened).run p with
    | .ok ((ts, opened), p) => tokens fuel opened p (ts.reverse ++ acc)
    | .error f => (acc.reverse, f)

def scan (s : List Char) : List Token × Fault := tokens (s.length + 1) [] { rest := s } []

def escapeChar (c : Char) : List Char :=
  if c = '"' then "&#34;".toList
  else if c = '\'' then "&#39;".toList
  else if c = '&' then "&amp;".toList
  else if c = '<' then "&lt;".toList
  else if c = '>' then "&gt;".toList
  else if c = '\t' then "&#x9;".toList
  else if c = '\n' then "&#xA;".toList
  else if c = '\r' then "&#xD;".toList
  else if Read.isAllowed c then [c]
  else ['�']

def escape (s : List Char) : List Char := s.flatMap escapeChar

def element (name s : String) : String :=
  if s = "" then "<" ++ name ++ "/>"
  else "<" ++ name ++ ">" ++ String.ofList (escape s.toList) ++ "</" ++ name ++ ">"

end Taproom.Xml
