import Taproom.Regex.Reader
import Taproom.Shell.FileTools

/-!
Programs that put out text or work on lines of text, and tests.
-/

namespace Taproom.Shell

open Session Archive

def escaped? : Char → Option UInt8
  | 'n' => some 10
  | 't' => some 9
  | 'r' => some 13
  | 'a' => some 7
  | 'b' => some 8
  | 'f' => some 12
  | 'v' => some 11
  | '\\' => some 92
  | _ => none

/-- Reads the backslash escapes of a text. A number has up to `digits` octal digits, behind a zero
if `zero` is set. -/
def unescape (zero : Bool) : List Char → Bytes
  | '\\' :: c :: rest =>
    match escaped? c with
    | some b => b :: unescape zero rest
    | none =>
      if isOctalDigit c && (!zero || c = '0') then
        let digits := (if zero then rest else c :: rest).takeWhile isOctalDigit |>.take 3
        let used := if zero then digits.length else digits.length - 1
        (octal digits).toUInt8 :: unescape zero (rest.drop used)
      else 92 :: ofText (String.singleton c) ++ unescape zero rest
  | c :: rest => ofText (String.singleton c) ++ unescape zero rest
  | [] => []
termination_by s => s.length
decreasing_by all_goals (simp only [List.length_cons, List.length_drop] at *; omega)

def echo (escapes : Bool) : Tool := fun args => do
  let (bare, args) := match args with
    | "-n" :: rest => (true, rest)
    | args => (false, args)
  let text := " ".intercalate args
  put false ((if escapes then unescape true text.toList else ofText text) ++ (if bare then [] else [10]))
  return 0

def widen (flags : List Char) (width : Nat) (s : String) : String :=
  let fill := List.replicate (width - s.length) (if flags.contains '0' && !flags.contains '-' then '0' else ' ')
  if flags.contains '-' then s ++ String.ofList fill else String.ofList fill ++ s

def formatOne (flags : List Char) (width : Nat) (directive : Char) (arg : String) : Bytes :=
  let number := (Text.readInt? arg.toList).getD 0
  match directive with
  | 'd' | 'i' | 'u' => ofText (widen flags width (toString number))
  | 'x' => ofText (widen flags width (String.ofList (Nat.toDigits 16 number.toNat)))
  | 'o' => ofText (widen flags width (String.ofList (Nat.toDigits 8 number.toNat)))
  | 'c' => ofText (widen flags width (String.ofList (arg.toList.take 1)))
  | 'b' => unescape true arg.toList
  | _ => ofText (widen flags width arg)

/-- Goes through a format once and gives the arguments that are left, and whether any was used. -/
def formatOnce (fuel : Nat) (format : List Char) (args : List String) (used : Bool) :
    Bytes × List String × Bool :=
  match fuel with
  | 0 => ([], args, used)
  | fuel + 1 =>
    match format with
    | [] => ([], args, used)
    | '%' :: '%' :: rest =>
      let (out, last) := formatOnce fuel rest args used
      (37 :: out, last)
    | '%' :: rest =>
      let (flags, rest) := rest.span fun c => c = '-' || c = '0' || c = '+' || c = ' ' || c = '#'
      let (width, rest) := rest.span Text.isDigit
      match rest with
      | [] => ([37], args, used)
      | c :: rest =>
        let (out, last) := formatOnce fuel rest args.tail true
        (formatOne flags (Text.digitsValue width) c (args.head?.getD "") ++ out, last)
    | '\\' :: c :: rest =>
      let digits := ((c :: rest).takeWhile isOctalDigit).take 3
      let len := if digits.isEmpty then 1 else digits.length
      let (out, last) := formatOnce fuel ((c :: rest).drop len) args used
      (unescape false ('\\' :: (c :: rest).take len) ++ out, last)
    | c :: rest =>
      let (out, last) := formatOnce fuel rest args used
      (ofText (String.singleton c) ++ out, last)

def formatAll (fuel : Nat) (format : List Char) (args : List String) : Bytes :=
  match fuel with
  | 0 => []
  | fuel + 1 =>
    let (out, rest, used) := formatOnce (format.length + 1) format args false
    if rest.isEmpty || !used then out else out ++ formatAll fuel format rest

def printf : Tool := fun args => do
  match args with
  | [] => refuse "printf: usage: printf format [arg ...]" 2
  | format :: args =>
    put false (formatAll (args.length + 1) format.toList args)
    return 0

def gather (name : String) (operands : List String) : StateM Session (Bytes × Nat) := do
  if operands.isEmpty then return (← takeInput, 0)
  operands.foldlM (fun (all, status) p => do
    if p = "-" then return (all ++ (← takeInput), status)
    match ← act (Act.contentOf p) with
    | .ok content => return (all ++ content.toList, status)
    | .error f =>
      complain s!"{name}: {p}: {reasonOf f}"
      return (all, 1)) ([], 0)

def cat : Tool := fun args => do
  let (content, status) ← gather "cat" (options args).2
  put false content
  return status

def filterLines (name : String) (f : List (List Char) → List (List Char)) (operands : List String) :
    StateM Session Nat := do
  let (content, status) ← gather name operands
  say (ofLines (f (linesOf (toText content).toList)))
  return status

def sort : Tool := fun args =>
  let (flags, operands) := options args
  let value (l : List Char) : Int := (Text.readInt? (l.dropWhile isSpace |>.takeWhile fun c => c = '-' || Text.isDigit c)).getD 0
  let before (a b : List Char) : Bool :=
    if flags.contains 'n' && value a ≠ value b then value a < value b
    else decide (String.ofList a ≤ String.ofList b)
  filterLines "sort" (fun lines =>
    let sorted := lines.mergeSort before
    let sorted := if flags.contains 'u' then sorted.eraseDups else sorted
    if flags.contains 'r' then sorted.reverse else sorted) operands

def withoutRepeats : List (List Char) → List (List Char)
  | a :: b :: rest => if a = b then withoutRepeats (b :: rest) else a :: withoutRepeats (b :: rest)
  | l => l

def uniq : Tool := fun args => filterLines "uniq" withoutRepeats (options args).2

def countOf : List String → Nat × List String
  | "-n" :: n :: rest => (Text.digitsValue n.toList, rest)
  | a :: rest =>
    match a.toList with
    | '-' :: 'n' :: d :: ds => (Text.digitsValue (d :: ds), rest)
    | '-' :: d :: ds => if Text.isDigit d then (Text.digitsValue (d :: ds), rest) else (10, a :: rest)
    | _ => (10, a :: rest)
  | [] => (10, [])

def head : Tool := fun args =>
  let (n, operands) := countOf args
  filterLines "head" (·.take n) operands

def tail : Tool := fun args =>
  let (n, operands) := countOf args
  filterLines "tail" (fun l => l.drop (l.length - n)) operands

def wc : Tool := fun args => do
  let (flags, operands) := options args
  let (content, status) ← gather "wc" operands
  let text := (toText content).toList
  let counts := (if flags.contains 'l' then [text.count '\n'] else []) ++
    (if flags.contains 'w' then [(Text.words text).length] else []) ++
    (if flags.contains 'c' then [content.length] else [])
  say (" ".intercalate (counts.map toString ++ operands.take 1) ++ "\n")
  return status

def tee : Tool := fun args => do
  let content ← takeInput
  put false content
  onEach (options args).2 fun p => do
    settle (← act (Act.putFile p ⟨content.toArray⟩ 0o666)) s!"tee: {p}"

def extended : List Char → List Char
  | '\\' :: c :: rest =>
    (if "()\x7b\x7d+?|".toList.contains c then [c] else ['\\', c]) ++ extended rest
  | c :: rest =>
    (if "()\x7b\x7d+?|".toList.contains c then ['\\', c] else [c]) ++ extended rest
  | [] => []

def exactly (s : List Char) : List Char :=
  s.flatMap fun c => if c.isAlphanum || c.toNat ≥ 128 then [c] else ['\\', c]

def grep : Tool := fun args => do
  let (flags, operands) := options (args.filter (· ≠ "-e"))
  match operands with
  | [] => refuse "Usage: grep [OPTION]... PATTERNS [FILE]...\nTry 'grep --help' for more information." 2
  | pattern :: files =>
    let p := pattern.toList
    let p := if flags.contains 'F' then exactly p else if flags.contains 'E' then p else extended p
    let p := if flags.contains 'x' then "^(".toList ++ p ++ ")$".toList else p
    let p := if flags.contains 'w' then "\\b(".toList ++ p ++ ")\\b".toList else p
    let p := if flags.contains 'i' then "(?i)".toList ++ p else p
    match Regex.parse (String.ofList p) with
    | .error _ => refuse s!"grep: {pattern}: invalid pattern" 2
    | .ok r =>
      let (content, status) ← gather "grep" files
      let lines := linesOf (toText content).toList
      let found := lines.filter fun l => r.occursIn (String.ofList l) != flags.contains 'v'
      if flags.contains 'c' then say (toString found.length ++ "\n")
      else if !flags.contains 'q' then say (ofLines found)
      return if !found.isEmpty && flags.contains 'q' then 0 else if status ≠ 0 then 2
        else if found.isEmpty then 1 else 0

def replacement (found : List Char) : List Char → List Char
  | '\\' :: 'n' :: rest => '\n' :: replacement found rest
  | '\\' :: c :: rest => c :: replacement found rest
  | '&' :: rest => found ++ replacement found rest
  | c :: rest => c :: replacement found rest
  | [] => []

def fieldsOf (sep : Char) (acc : List Char) : List Char → List (List Char)
  | '\\' :: c :: rest => if c = sep then fieldsOf sep (c :: acc) rest else fieldsOf sep (c :: '\\' :: acc) rest
  | c :: rest => if c = sep then acc.reverse :: fieldsOf sep [] rest else fieldsOf sep (c :: acc) rest
  | [] => [acc.reverse]

def edit? (isExtended : Bool) (script : List Char) : Option (List (List Char) → List (List Char)) :=
  let pattern? (p : List Char) := (Regex.parse (String.ofList (if isExtended then p else extended p))).toOption
  match script with
  | 's' :: sep :: rest =>
    match fieldsOf sep [] rest with
    | [old, new, flags] => do
      let r ← pattern? old
      some (List.map (r.replaceIn (flags.contains 'g') fun found => replacement found new))
    | _ => none
  | '/' :: rest =>
    match fieldsOf '/' [] rest with
    | [p, ['d']] => do
      let r ← pattern? p
      some (List.filter fun l => !r.occursIn (String.ofList l))
    | _ => none
  | _ => none

def sed : Tool := fun args => do
  let (flags, operands) := options (args.filter (· ≠ "-e"))
  match operands with
  | [] => refuse "Usage: sed [OPTION]... \x7bscript-only-if-no-other-script\x7d [input-file]..."
  | script :: files =>
    match (Text.splitAt ';' script.toList).mapM fun s => edit? (flags.contains 'E' || flags.contains 'r') s with
    | none => refuse s!"sed: -e expression #1, char 1: unknown command: {script}"
    | some edits =>
      if flags.contains 'i' then
        onEach files fun p => do
          match ← act (Act.contentOf p) with
          | .error f => refuse s!"sed: can't read {p}: {reasonOf f}" 2
          | .ok content =>
            let lines := edits.foldl (fun l f => f l) (linesOf (toText content.toList).toList)
            settle (← act (Act.putFile p (ofLines lines).toUTF8 0o644)) s!"sed: {p}"
      else filterLines "sed" (fun lines => edits.foldl (fun l f => f l) lines) files

def charsOf : List Char → List Char
  | '\\' :: 'n' :: rest => '\n' :: charsOf rest
  | a :: '-' :: b :: rest =>
    ((List.range (b.toNat + 1 - a.toNat)).map fun i => Char.ofNat (a.toNat + i)) ++ charsOf rest
  | c :: rest => c :: charsOf rest
  | [] => []

def tr : Tool := fun args => do
  let (flags, operands) := options args
  let content := (toText (← takeInput)).toList
  match operands with
  | [set] => say (String.ofList (if flags.contains 'd' then content.filter fun c => !(charsOf set.toList).contains c else content))
  | old :: new :: _ =>
    let olds := charsOf old.toList
    let news := charsOf new.toList
    let swap (c : Char) : Char :=
      match olds.idxOf? c with
      | some i => (news[i]?).getD (news.getLast?.getD c)
      | none => c
    say (String.ofList (content.map swap))
  | [] => complain "tr: missing operand\nTry 'tr --help' for more information."
  return if operands.isEmpty then 1 else 0

def basename : Tool := fun args => do
  match args with
  | p :: rest =>
    let name := Path.base p
    let cut := trimSuffix name (rest.head?.getD "")
    say ((if cut = "" then name else cut) ++ "\n")
    return 0
  | [] => refuse "basename: missing operand\nTry 'basename --help' for more information."

def dirname : Tool := fun args => do
  sayLines (args.map Path.dir)
  return 0

def uname : Tool := fun args => do
  let (flags, _) := options args
  say (if flags.contains 'm' then "x86_64\n" else "Linux\n")
  return 0

def fileTest (kind : Char) (p : String) : StateM Session Bool := do
  let e ← entryAt? true p
  match kind with
  | 'e' | 'r' | 'w' => return e.isSome
  | 'd' => isDir p
  | 'f' => return e.any fun
    | .file _ => true
    | _ => false
  | 's' => return ((← get).disk.content p).toOption.any (·.size > 0)
  | 'x' => return e.isSome && ((← isDir p) || (← modeAt p) &&& 0o111 ≠ 0)
  | _ => return (← entryAt? false p).any fun
    | .link _ => true
    | _ => false

def compareTest? (op a b : String) : Option Bool :=
  let numbers (f : Int → Int → Bool) : Option Bool := do
    some (f (← Text.readInt? a.toList) (← Text.readInt? b.toList))
  match op with
  | "=" | "==" => some (a = b)
  | "!=" => some (a ≠ b)
  | "-eq" => numbers (· == ·)
  | "-ne" => numbers (· != ·)
  | "-lt" => numbers (fun a b => decide (a < b))
  | "-le" => numbers (fun a b => decide (a ≤ b))
  | "-gt" => numbers (fun a b => decide (a > b))
  | "-ge" => numbers (fun a b => decide (a ≥ b))
  | _ => none

def both (a b : Option Bool) (f : Bool → Bool → Bool) : Option Bool :=
  a.bind fun a => b.map (f a)

def holds? (fuel : Nat) (args : List String) : StateM Session (Option Bool) :=
  match fuel with
  | 0 => return none
  | fuel + 1 => do
    match args with
    | [] => return some false
    | [a] => return some (a ≠ "")
    | ["!", a] => return some (a = "")
    | ["-n", a] => return some (a ≠ "")
    | ["-z", a] => return some (a = "")
    | [op, p] =>
      match op.toList with
      | ['-', k] => if "edfrswxLh".toList.contains k then return some (← fileTest k p) else return none
      | _ => return none
    | a :: op :: b :: rest =>
      match compareTest? op a b, rest with
      | some v, [] => return some v
      | some v, "-a" :: rest => return (← holds? fuel rest).map (v && ·)
      | some v, "-o" :: rest => return (← holds? fuel rest).map (v || ·)
      | _, _ =>
        match a, b with
        | "!", _ => return (← holds? fuel (op :: b :: rest)).map (!·)
        | _, "-a" => return both (← holds? fuel [a, op]) (← holds? fuel rest) (· && ·)
        | _, "-o" => return both (← holds? fuel [a, op]) (← holds? fuel rest) (· || ·)
        | _, _ => return none

def test : Tool := fun args => do
  match ← holds? (args.length + 1) args with
  | some true => return 0
  | some false => return 1
  | none => refuse "sh: 1: test: unexpected operator" 2

def bracket : Tool := fun args => do
  if args.getLast? = some "]" then test args.dropLast else refuse "sh: 1: [: missing ]" 2

def seqNumbers : Tool := fun args => do
  let bounds := args.filterMap fun a => Text.readInt? a.toList
  let (first, last) := match bounds with
    | [b] => (1, b)
    | a :: b :: _ => (a, b)
    | [] => (1, 0)
  sayLines ((List.range (last - first + 1).toNat).map fun (i : Nat) => toString (first + (i : Int)))
  return 0

def tools : Dict String Tool :=
  .ofList [
    ("true", fun _ => return 0), (":", fun _ => return 0), ("false", fun _ => return 1),
    ("sleep", fun _ => return 0), ("sync", fun _ => return 0),
    ("mkdir", mkdir), ("rmdir", rmdir), ("rm", rm), ("touch", touch), ("cp", cp), ("mv", mv),
    ("ln", ln), ("chmod", chmod), ("ls", ls), ("install", install), ("readlink", readlink),
    ("printf", printf), ("cat", cat), ("sort", sort), ("uniq", uniq), ("head", head),
    ("tail", tail), ("wc", wc), ("tee", tee), ("grep", grep), ("sed", sed), ("tr", tr),
    ("basename", basename), ("dirname", dirname), ("uname", uname), ("test", test),
    ("[", bracket), ("seq", seqNumbers)]

end Taproom.Shell
