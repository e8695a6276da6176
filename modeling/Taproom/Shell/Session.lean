import Taproom.Archive.Bytes
import Taproom.Disk.Action
import Taproom.Shell.Command

/-!
A session of the shell: the disk it works on, its variables, its input and what it has put out.
-/

namespace Taproom.Shell

open Archive (Bytes)

structure Piece where
  isError : Bool
  content : Bytes

structure Session where
  disk : Disk
  vars : Dict String String := {}
  exported : Names := {}
  args : List String := []
  functions : Dict String Command := {}
  status : Nat := 0
  strict : Bool := false
  input : Bytes := []
  output : List Piece := []

/-- What a program does when it is run; it gives its exit status. -/
abbrev Tool := List String → StateM Session Nat

namespace Session

def put (isError : Bool) (content : Bytes) : StateM Session Unit :=
  modify fun s => { s with output := ⟨isError, content⟩ :: s.output }

def say (text : String) : StateM Session Unit := put false (Archive.ofText text)

def complain (text : String) : StateM Session Unit := put true (Archive.ofText (text ++ "\n"))

def refuse (text : String) (status : Nat := 1) : StateM Session Nat := do
  complain text
  return status

def takeInput : StateM Session Bytes := modifyGet fun s => (s.input, { s with input := [] })

def act {α : Type} (a : Act α) : StateM Session (Except Fault α) := modifyGet fun s =>
  let (r, d) := a.run s.disk
  (r, { s with disk := d })

def entryAt? (follow : Bool) (p : String) : StateM Session (Option Disk.Entry) := do
  return ((← get).disk.find follow p).toOption.map (·.2)

def isDir (p : String) : StateM Session Bool := return (← get).disk.isDirectory p

def modeAt (p : String) : StateM Session Nat := do
  match ← entryAt? true p with
  | some (.dir m) => return m
  | some e => return (((← get).disk.bodyOf? e).map (·.mode)).getD 0
  | none => return 0

end Session

def reasonOf (f : Fault) : String :=
  let text := match f.root with
    | .disk r => r.reason.message
    | f => f.message
  match text.toList with
  | c :: rest => String.ofList (c.toUpper :: rest)
  | [] => ""

def options : List String → List Char × List String
  | [] => ([], [])
  | "--" :: rest => ([], rest)
  | a :: rest =>
    let (letters, operands) := options rest
    match a.toList with
    | '-' :: c :: more => (c :: more ++ letters, operands)
    | _ => (letters, a :: operands)

def linesOf (s : List Char) : List (List Char) :=
  match s with
  | [] => []
  | s =>
    let lines := Text.splitAt '\n' s
    if s.getLast? = some '\n' then lines.dropLast else lines

def ofLines (lines : List (List Char)) : String := String.ofList (lines.flatMap (· ++ ['\n']))

end Taproom.Shell
