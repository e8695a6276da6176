import Taproom.Shell.Word

/-!
The tokens of a shell script: words, signs between them, and redirections.
-/

namespace Taproom.Shell

inductive Token where
  | word (w : Word)
  /-- A sign between commands; a line break is the sign of one. -/
  | sign (s : String)
  | redirect (stream : Option Nat) (sign : String)
  | here (content : Word)
  deriving DecidableEq, Repr

def signs : List String := ["&&", "||", ";;", ";", "&", "|", "(", ")"]

def redirectSigns : List String := [">>", ">&", ">|", ">", "<&", "<"]

def firstOf? (texts : List String) (s : List Char) : Option (String × List Char) :=
  texts.findSome? fun t => (Text.dropPrefix? t.toList s).map fun rest => (t, rest)

def linesUpTo (last : List Char) (tabs : Bool) (lines : List (List Char)) : List (List Char) × List (List Char) :=
  let strip (l : List Char) := if tabs then l.dropWhile (· = '\t') else l
  ((lines.map strip).takeWhile (· ≠ last), (lines.dropWhile fun l => strip l ≠ last).drop 1)

def literal (w : Word) : String :=
  String.join (w.map fun
    | .text s _ => s
    | .value n _ _ _ => "$" ++ n
    | _ => "")

def isQuoted (w : Word) : Bool :=
  w.any fun
    | .text _ q => q
    | _ => false

def readHere (s : List Char) : Option Word :=
  (readParts (s.length + 2) true [] ((s.flatMap fun c => if c = '"' then ['\\', c] else [c]) ++ ['"'])).map (·.1)

/-- Takes the lines that are given as input out of a text that starts behind the sign for them. -/
def cutHere (s : List Char) : Option (Word × List Char) := do
  let (tabs, s) := match s with
    | '-' :: rest => (true, rest)
    | s => (false, s)
  let (w, rest) ← readWord (s.dropWhile isSpace)
  let (line, more) := rest.span (· ≠ '\n')
  let (body, after) := linesUpTo (literal w).toList tabs (Text.splitAt '\n' (more.drop 1))
  let content := body.flatMap (· ++ ['\n'])
  let word ← if isQuoted w then some [.text (String.ofList content) true] else readHere content
  some (word, line ++ '\n' :: Text.joinWith ['\n'] after)

def scan (fuel : Nat) (s : List Char) : Option (List Token) :=
  match fuel with
  | 0 => none
  | fuel + 1 =>
    match s with
    | [] => some []
    | '\\' :: '\n' :: rest => scan fuel rest
    | '\n' :: rest => (scan fuel rest).map (.sign "\n" :: ·)
    | '#' :: rest => scan fuel (rest.dropWhile (· ≠ '\n'))
    | '<' :: '<' :: rest => do
      let (content, rest) ← cutHere rest
      (scan fuel rest).map (.here content :: ·)
    | c :: rest =>
      if isSpace c then scan fuel rest
      else
        match firstOf? signs s with
        | some (t, rest) => (scan fuel rest).map (.sign t :: ·)
        | none =>
          let (digits, after) := s.span Text.isDigit
          match firstOf? redirectSigns after with
          | some (t, rest) =>
            let stream := if digits.isEmpty then none else some (Text.digitsValue digits)
            (scan fuel rest).map (.redirect stream t :: ·)
          | none => do
            let (w, rest) ← readWord s
            (scan fuel rest).map (.word w :: ·)

def tokens (script : String) : Option (List Token) := scan (2 * script.length + 2) script.toList

end Taproom.Shell
