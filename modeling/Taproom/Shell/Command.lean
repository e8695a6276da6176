import Taproom.Shell.Token

/-!
The commands of a shell script and how they are read from its tokens.
-/

namespace Taproom.Shell

inductive Redirect where
  | read (path : Word)
  | write (stream : Nat) (append : Bool) (path : Word)
  | join (stream : Nat) (other : Word)
  | here (content : Word)
  deriving DecidableEq, Repr

inductive Command where
  | skip
  | simple (sets : List (String × Word)) (words : List Word)
  | redirected (c : Command) (rs : List Redirect)
  | pipe (a b : Command)
  | negated (c : Command)
  | both (a b : Command)
  | either (a b : Command)
  | seq (a b : Command)
  | branch (test yes no : Command)
  /-- Runs the body while the test holds, or while it does not. -/
  | loop (stops : Bool) (test body : Command)
  | each (name : String) (words : List Word) (body : Command)
  | choose (subject : Word) (patterns : List Word) (body others : Command)
  | apart (c : Command)
  | define (name : String) (body : Command)
  deriving Repr, Inhabited

namespace Command

def closers : List String := ["then", "else", "elif", "fi", "do", "done", "esac", "\x7d"]

def plainWord? : List Token → Option (String × List Token)
  | .word w :: rest => (plain? w).map fun s => (s, rest)
  | _ => none

def dropLines : List Token → List Token
  | .sign "\n" :: rest => dropLines rest
  | l => l

def expect (s : String) (l : List Token) : Option (List Token) :=
  match plainWord? l with
  | some (t, rest) => if t = s then some rest else none
  | none => none

def isOver : List Token → Bool
  | [] => true
  | .sign s :: _ => s = ")" || s = ";;"
  | l => (plainWord? l).any fun (s, _) => closers.contains s

def setting? (w : Word) : Option (String × Word) :=
  match w with
  | .text s false :: rest =>
    match Text.cut? ['='] s.toList with
    | some (name, value) =>
      if isName name then
        some (String.ofList name, if value.isEmpty then rest else .text (String.ofList value) false :: rest)
      else none
    | none => none
  | _ => none

def readRedirect? : List Token → Option (Redirect × List Token)
  | .redirect stream sign :: .word w :: rest =>
    match sign with
    | "<" => some (.read w, rest)
    | ">" | ">|" => some (.write (stream.getD 1) false w, rest)
    | ">>" => some (.write (stream.getD 1) true w, rest)
    | ">&" => some (.join (stream.getD 1) w, rest)
    | _ => some (.join (stream.getD 0) w, rest)
  | .here w :: rest => some (.here w, rest)
  | _ => none

def readRedirects (fuel : Nat) (l : List Token) : List Redirect × List Token :=
  match fuel with
  | 0 => ([], l)
  | fuel + 1 =>
    match readRedirect? l with
    | some (r, rest) =>
      let (rs, rest) := readRedirects fuel rest
      (r :: rs, rest)
    | none => ([], l)

def withRedirects (c : Command) : List Redirect → Command
  | [] => c
  | rs => .redirected c rs

def readSimple (fuel : Nat) (sets : List (String × Word)) (words : List Word) (rs : List Redirect)
    (l : List Token) : Option (Command × List Token) :=
  match fuel with
  | 0 => none
  | fuel + 1 =>
    match readRedirect? l, l with
    | some (r, rest), _ => readSimple fuel sets words (r :: rs) rest
    | none, .word w :: rest =>
      match words, setting? w with
      | [], some s => readSimple fuel (s :: sets) words rs rest
      | _, _ => readSimple fuel sets (w :: words) rs rest
    | none, l =>
      if sets.isEmpty && words.isEmpty && rs.isEmpty then none
      else some (withRedirects (.simple sets.reverse words.reverse) rs.reverse, l)

def readWords : List Token → List Word × List Token
  | .word w :: rest =>
    let (ws, rest) := readWords rest
    (w :: ws, rest)
  | l => ([], l)

def readPatterns : List Token → Option (List Word × List Token)
  | .sign "(" :: .word w :: rest => readMore [w] rest
  | .word w :: rest => readMore [w] rest
  | _ => none
where
  readMore (ws : List Word) : List Token → Option (List Word × List Token)
    | .sign "|" :: .word w :: rest => readMore (w :: ws) rest
    | .sign ")" :: rest => some (ws.reverse, rest)
    | _ => none

def afterSemicolon : List Token → List Token
  | .sign ";" :: rest => dropLines rest
  | l => dropLines l

mutual

def readList (fuel : Nat) (l : List Token) : Option (Command × List Token) :=
  match fuel with
  | 0 => none
  | fuel + 1 =>
    let l := dropLines l
    if isOver l then some (.skip, l)
    else do
      let (c, rest) ← readChain fuel l
      match rest with
      | .sign s :: more =>
        if s = ";" || s = "\n" || s = "&" then
          let (d, rest) ← readList fuel more
          some (match d with
            | .skip => c
            | d => .seq c d, rest)
        else some (c, rest)
      | rest => some (c, rest)

def readChain (fuel : Nat) (l : List Token) : Option (Command × List Token) :=
  match fuel with
  | 0 => none
  | fuel + 1 => do
    let (c, rest) ← readPipe fuel l
    readLinks fuel c rest

def readLinks (fuel : Nat) (c : Command) (l : List Token) : Option (Command × List Token) :=
  match fuel with
  | 0 => none
  | fuel + 1 =>
    match l with
    | .sign "&&" :: rest => do
      let (d, rest) ← readPipe fuel (dropLines rest)
      readLinks fuel (.both c d) rest
    | .sign "||" :: rest => do
      let (d, rest) ← readPipe fuel (dropLines rest)
      readLinks fuel (.either c d) rest
    | l => some (c, l)

def readPipe (fuel : Nat) (l : List Token) : Option (Command × List Token) :=
  match fuel with
  | 0 => none
  | fuel + 1 =>
    match expect "!" l with
    | some rest => (readPipe fuel rest).map fun (c, rest) => (.negated c, rest)
    | none => do
      let (c, rest) ← readCommand fuel l
      match rest with
      | .sign "|" :: rest =>
        let (d, rest) ← readPipe fuel (dropLines rest)
        some (.pipe c d, rest)
      | rest => some (c, rest)

def readCommand (fuel : Nat) (l : List Token) : Option (Command × List Token) :=
  match fuel with
  | 0 => none
  | fuel + 1 =>
    let finish (c : Command) (rest : List Token) : Option (Command × List Token) :=
      let (rs, rest) := readRedirects rest.length rest
      some (withRedirects c rs, rest)
    match l with
    | .sign "(" :: rest => do
      let (c, rest) ← readList fuel rest
      match rest with
      | .sign ")" :: rest => finish (.apart c) rest
      | _ => none
    | .word w :: .sign "(" :: .sign ")" :: rest => do
      let (c, rest) ← readCommand fuel (dropLines rest)
      some (.define (literal w) c, rest)
    | l =>
      match plainWord? l with
      | some ("if", rest) => do
        let (c, rest) ← readBranch fuel rest
        finish c rest
      | some ("\x7b", rest) => do
        let (c, rest) ← readList fuel rest
        finish c (← expect "\x7d" rest)
      | some ("while", rest) => do
        let (test, rest) ← readList fuel rest
        let (body, rest) ← readList fuel (← expect "do" rest)
        finish (.loop false test body) (← expect "done" rest)
      | some ("until", rest) => do
        let (test, rest) ← readList fuel rest
        let (body, rest) ← readList fuel (← expect "do" rest)
        finish (.loop true test body) (← expect "done" rest)
      | some ("for", rest) => do
        let (name, rest) ← plainWord? rest
        let (words, rest) := match expect "in" (dropLines rest) with
          | some rest => readWords rest
          | none => ([[.value "@" "" "" true]], rest)
        let (body, rest) ← readList fuel (← expect "do" (afterSemicolon rest))
        finish (.each name words body) (← expect "done" rest)
      | some ("case", rest) => do
        let (subject, rest) ← match rest with
          | .word w :: rest => some (w, rest)
          | _ => none
        let rest ← expect "in" (dropLines rest)
        let (c, rest) ← readCases fuel subject rest
        finish c rest
      | some (s, _) => if closers.contains s then none else readSimple (l.length + 1) [] [] [] l
      | none => readSimple (l.length + 1) [] [] [] l

def readBranch (fuel : Nat) (l : List Token) : Option (Command × List Token) :=
  match fuel with
  | 0 => none
  | fuel + 1 => do
    let (test, rest) ← readList fuel l
    let (yes, rest) ← readList fuel (← expect "then" rest)
    match plainWord? rest with
    | some ("fi", rest) => some (.branch test yes .skip, rest)
    | some ("else", rest) =>
      let (no, rest) ← readList fuel rest
      some (.branch test yes no, ← expect "fi" rest)
    | some ("elif", rest) =>
      let (no, rest) ← readBranch fuel rest
      some (.branch test yes no, rest)
    | _ => none

def readCases (fuel : Nat) (subject : Word) (l : List Token) : Option (Command × List Token) :=
  match fuel with
  | 0 => none
  | fuel + 1 =>
    let l := dropLines l
    match expect "esac" l with
    | some rest => some (.skip, rest)
    | none => do
      let (patterns, rest) ← readPatterns l
      let (body, rest) ← readList fuel rest
      let rest := match rest with
        | .sign ";;" :: rest => rest
        | rest => rest
      let (others, rest) ← readCases fuel subject rest
      some (.choose subject patterns body others, rest)

end

def ofScript? (script : String) : Option Command := do
  let l ← tokens script
  match readList (12 * l.length + 12) l with
  | some (c, []) => some c
  | _ => none

end Command

end Taproom.Shell
