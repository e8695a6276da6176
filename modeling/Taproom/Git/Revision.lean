import Taproom.Calendar.Layout
import Taproom.Regex.Reader
import Taproom.Text.Cut
import Taproom.Text.Quoted
import Taproom.Unicode.Category

/-!
Revisions: texts that name a commit. A revision is a name, followed by steps through the history
and other statements about it.
-/

namespace Taproom.Git.Revision

inductive Defect where
  | contains (part : String)
  | starts (part : String)
  | ends (part : String)
  | doubleSlash
  | lockName
  | parentNumber (text : String)
  | brace (part : String)
  | reservedBrace
  | openBrace (form : String)
  | date (text : String)
  | pattern (f : Regex.Fault)
  | lateName
  | misplacedAt (forms : String)
  | misplacedStep
  | misplacedColon (form : String)
  deriving DecidableEq, Repr

inductive Fault where
  | malformed (d : Defect)
  | unknown
  | noParent
  | noMatch (pattern : String)
  deriving DecidableEq, Repr

def Defect.message : Defect → String
  | contains part => s!"must not contains \"{part}\""
  | starts part => s!"must not start with \"{part}\""
  | ends part => s!"must not end with \"{part}\""
  | doubleSlash => "must not contains consecutively \"/\""
  | lockName => "cannot end with .lock"
  | parentNumber text => s!"\"{text}\" found must be 0, 1 or 2 after \"^\""
  | brace part => s!"\"{part}\" is not a valid revision suffix brace component"
  | reservedBrace =>
    "revision suffix brace component sequences starting with \"/!\" others than those defined are reserved"
  | openBrace form => s!"missing \"\x7d\" in {form} structure"
  | date text => s!"wrong date \"{text}\" must fit ISO-8601 format : 2006-01-02T15:04:05Z"
  | pattern f => s!"revision suffix brace component, {f.message}"
  | lateName => "reference must be defined once at the beginning"
  | misplacedAt forms => s!"\"@\" statement is not valid, could be : {forms}"
  | misplacedStep => "\"~\" or \"^\" statement must have a reference defined at the beginning"
  | misplacedColon form => s!"\":\" statement is not valid, could be : {form}"

def Fault.message : Fault → String
  | malformed d => "Revision invalid : " ++ d.message
  | unknown => "reference not found"
  | noParent => "EOF"
  | noMatch pattern => s!"No commit message match regexp : {quoted pattern}"

/-! ### Tokens -/

/-- A run of letters, a run of digits, or any other character. -/
inductive Token where
  | word (text : List Char)
  | number (text : List Char)
  | char (c : Char)
  deriving DecidableEq, Repr

def Token.text : Token → List Char
  | word t | number t => t
  | char c => [c]

/-- What follows a run. A zero that ends a run is lost. -/
def afterRun (p : Char → Bool) (s : List Char) : List Char :=
  match s.dropWhile p with
  | '\x00' :: rest => rest
  | rest => rest

theorem length_dropWhile_le {α : Type} (p : α → Bool) (s : List α) :
    (s.dropWhile p).length ≤ s.length := by
  induction s with
  | nil => simp
  | cons a s ih =>
    simp only [List.dropWhile]
    split
    · simp only [List.length_cons]
      omega
    · simp

theorem length_afterRun_le (p : Char → Bool) (s : List Char) : (afterRun p s).length ≤ s.length := by
  have h := length_dropWhile_le p s
  unfold afterRun
  split
  · rename_i rest heq
    rw [heq] at h
    simp only [List.length_cons] at h
    omega
  · exact h

/-- The tokens of a text, which ends at the first zero. -/
def tokens (s : List Char) : List Token :=
  match s with
  | [] => []
  | c :: rest =>
    if c = '\x00' then []
    else if Unicode.isLetter c then
      .word (c :: rest.takeWhile Unicode.isLetter) :: tokens (afterRun Unicode.isLetter rest)
    else if Unicode.isNumber c then
      .number (c :: rest.takeWhile Unicode.isNumber) :: tokens (afterRun Unicode.isNumber rest)
    else .char c :: tokens rest
termination_by s.length
decreasing_by
  · have := length_afterRun_le Unicode.isLetter rest
    simp only [List.length_cons]
    omega
  · have := length_afterRun_le Unicode.isNumber rest
    simp only [List.length_cons]
    omega
  · simp

def valueOf (text : List Char) : Nat :=
  if text.all Text.isDigit then min (Text.digitsValue text) 9223372036854775807 else 0

/-! ### Items -/

inductive Item where
  | name (s : String)
  | logged
  | dated
  | visited
  | tracked
  | pushed
  | back (count : Nat)
  | parent (number : Nat)
  | matching (pattern : String) (r : Regex) (negated : Bool)
  | typed (type : String)
  | anyMatching
  | path
  | staged

def Token.isForbidden : Token → Bool
  | char c => c = '\\' || c = '?' || c = '*' || c = '[' || Unicode.isSpace c || Unicode.isControl c
  | _ => false

def Token.endsName (t : Token) : Bool :=
  t = .char '@' || t = .char ':' || t = .char '~' || t = .char '^'

def isLockName (name : List Char) : Bool := (Text.dropSuffix? ".lock".toList name).isSome

def checkPart (name : List Char) (last : Option Token) (t : Token) : Except Defect Unit :=
  let dot := Token.char '.'
  let slash := Token.char '/'
  if t.isForbidden then .error (.contains (String.ofList t.text))
  else if (t = dot || t = slash) && name.isEmpty then .error (.starts (String.ofList t.text))
  else if t = dot && last = some slash then .error (.contains "/.")
  else if t = dot && last = some dot then .error (.contains "..")
  else if t = slash && last = some slash then .error .doubleSlash
  else if t = slash && isLockName name then .error .lockName
  else .ok ()

def checkName (name : List Char) (last : Option Token) : Except Defect Unit :=
  if last = some (.char '/') then .error (.ends "/")
  else if last = some (.char '.') then .error (.ends ".")
  else if isLockName name then .error .lockName
  else .ok ()

def readName (name : List Char) (last : Option Token) :
    List Token → Except Defect (Item × List Token)
  | [] => do
    checkName name last
    return (.name (String.ofList name), [])
  | t :: rest => do
    if t.endsName then
      checkName name last
      return (.name (String.ofList name), t :: rest)
    else
      checkPart name last t
      readName (name ++ t.text) (some t) rest

def dateLayout : Calendar.Layout :=
  [.year, .text "-", .month true, .text "-", .day true, .text "T", .hour, .text ":", .minute true,
   .text ":", .second true, .text "Z"]

def readDate (date : List Char) : List Token → Except Defect (Item × List Token)
  | [] => .error (.openBrace "@\x7b<data>\x7d")
  | .char '\x7d' :: rest =>
    let date := String.ofList date
    if (dateLayout.read? date).isSome then .ok (.dated, rest) else .error (.date date)
  | t :: rest => readDate (date ++ t.text) rest

/-- Reads what follows an at sign. Without a brace it stands for the present commit. -/
def readAt : List Token → Except Defect (Item × List Token)
  | .char '\x7b' :: rest =>
    match rest with
    | .word text :: .char '\x7d' :: more =>
      if text = ['u'] || text = "upstream".toList then .ok (.tracked, more)
      else if text = "push".toList then .ok (.pushed, more)
      else readDate text (.char '\x7d' :: more)
    | .number _ :: .char '\x7d' :: more => .ok (.logged, more)
    | .char '-' :: .number _ :: more =>
      match more with
      | .char '\x7d' :: more => .ok (.visited, more)
      | _ => .error (.openBrace "@\x7b-n\x7d")
    | t :: more => readDate t.text more
    | [] => readDate [] []
  | rest => .ok (.name "HEAD", rest)

def compile (pattern : List Char) (negated : Bool) : Except Defect Item :=
  match Regex.parse (String.ofList pattern) with
  | .ok r => .ok (.matching (String.ofList pattern) r negated)
  | .error f => .error (.pattern f)

def objectTypes : List (List Char) := ["commit", "tree", "blob", "tag", "object"].map String.toList

/-- Reads what is between braces behind a caret: the type of an object, or a slash and a pattern.
An exclamation mark in front of a pattern has a meaning of its own. -/
def readBraces (fuel : Nat) (first : Bool) (pattern : List Char) (negated : Bool) (ts : List Token) :
    Except Defect (Item × List Token) :=
  match fuel, ts with
  | 0, _ | _, [] => .error (if first then .brace "" else .openBrace "^\x7b<data>\x7d")
  | fuel + 1, t :: rest =>
    let next := rest.head?
    if next = some (.char '\x7d') && objectTypes.any (fun type => t = .word type) then
      .ok (.typed (String.ofList t.text), rest.drop 1)
    else if pattern.isEmpty && t = .char '\x7d' then .ok (.typed "tag", rest.drop 1)
    else if pattern.isEmpty && t = .char '!' then
      if next = some (.char '!') then readBraces fuel false ['!'] negated (rest.drop 1)
      else if next = some (.char '-') then readBraces fuel false [] true (rest.drop 1)
      else .error .reservedBrace
    else if pattern.isEmpty && t = .char '/' then readBraces fuel false [] negated rest
    else if first && t ≠ .char '/' then .error (.brace (String.ofList t.text))
    else if t ≠ .char '\x7d' then readBraces fuel false (pattern ++ t.text) negated rest
    else (compile pattern negated).map fun item => (item, rest)

def readCaret : List Token → Except Defect (Item × List Token)
  | .char '\x7b' :: rest => readBraces (rest.length + 1) true [] false rest
  | .number text :: rest =>
    if valueOf text > 2 then .error (.parentNumber (String.ofList text))
    else .ok (.parent (valueOf text), rest)
  | rest => .ok (.parent 1, rest)

def readTilde : List Token → Item × List Token
  | .number text :: rest => (.back (valueOf text), rest)
  | rest => (.back 1, rest)

def readSearch (fuel : Nat) (pattern : List Char) (negated : Bool) (ts : List Token) : Except Defect Item :=
  match fuel, ts with
  | 0, _ | _, [] => (compile pattern negated).map fun _ => .anyMatching
  | fuel + 1, t :: rest =>
    let next := rest.head?
    if t = .char '!' && next = some (.char '!') then
      readSearch fuel (pattern ++ ['!']) negated (rest.drop 1)
    else if t = .char '!' && pattern.isEmpty then
      if next = some (.char '-') then readSearch fuel [] true (rest.drop 1) else .error .reservedBrace
    else readSearch fuel (pattern ++ t.text) negated rest

def readColon : List Token → Except Defect Item
  | .char '/' :: rest => readSearch (rest.length + 1) [] false rest
  | .number _ :: .char ':' :: _ => .ok .staged
  | _ => .ok .path

def readItems (fuel : Nat) (ts : List Token) : Except Defect (List Item) :=
  match fuel, ts with
  | 0, _ | _, [] => .ok []
  | fuel + 1, t :: rest => do
    if t = .char ':' then return [← readColon rest]
    let (item, rest) ←
      if t = .char '@' then readAt rest
      else if t = .char '~' then pure (readTilde rest)
      else if t = .char '^' then readCaret rest
      else readName [] none (t :: rest)
    return item :: (← readItems fuel rest)

/-! ### The order of items -/

/-- Where an item may stand. The rest of a revision is not looked at when it is the last that may
come: then the answer is `true`. -/
def checkItem (count index : Nat) (named : Bool) : Item → Except Defect Bool
  | .name _ => if index = 0 then .ok false else .error .lateName
  | .dated => closing "<refname>@\x7b<ISO-8601 date>\x7d, @\x7b<ISO-8601 date>\x7d"
  | .logged => closing "<refname>@\x7b<n>\x7d, @\x7b<n>\x7d"
  | .visited => if count = 1 then .ok true else .error (.misplacedAt "@\x7b-<n>\x7d")
  | .tracked => closing "<refname>@\x7bupstream\x7d, @\x7bupstream\x7d, <refname>@\x7bu\x7d, @\x7bu\x7d"
  | .pushed => closing "<refname>@\x7bpush\x7d, @\x7bpush\x7d"
  | .back _ | .parent _ | .matching .. => if named then .ok false else .error .misplacedStep
  | .typed _ => .ok false
  | .anyMatching => if count = 1 then .ok true else .error (.misplacedColon ":/<regexp>")
  | .path =>
    if (index + 1 = count && named) || count = 1 then .ok true
    else .error (.misplacedColon "<revision>:<path>")
  | .staged => if count = 1 then .ok true else .error (.misplacedColon ":<n>:<path>")
where
  /-- An item that is alone or comes right after the name. -/
  closing (forms : String) : Except Defect Bool :=
    if count = 1 || (named && count = 2) then .ok true else .error (.misplacedAt forms)

def Item.isName : Item → Bool
  | name _ => true
  | _ => false

def checkItems (count index : Nat) (named : Bool) : List Item → Except Defect Unit
  | [] => .ok ()
  | item :: rest => do
    if ← checkItem count index named item then return
    checkItems count (index + 1) (named || item.isName) rest

def parse (rev : String) : Except Defect (List Item) := do
  let ts := tokens rev.toList
  let items ← readItems (ts.length + 1) ts
  checkItems items.length 0 false items
  return items

end Taproom.Git.Revision
