import Taproom.Shell.Stream
import Taproom.Shell.TextTools

/-!
The commands of the shell itself, and how other programs are found. Commands inside commands are
run by the function `go` that each of them is given.
-/

namespace Taproom.Shell

open Session Archive

def systemDirs : List String := ["/bin", "/usr/bin", "/usr/local/bin", "/sbin", "/usr/sbin"]

inductive Found where
  | tool (t : Tool)
  | script (path : String)
  | denied
  | missing

def programAt (path : String) : StateM Session Found := do
  match ← entryAt? true path with
  | some (.file _) => return if (← modeAt path) &&& 0o111 ≠ 0 then .script path else .denied
  | some _ => return .denied
  | none =>
    if systemDirs.contains (Path.dir path) then
      match (tools.insert "echo" (echo false)).get? (Path.base path) with
      | some t => return .tool t
      | none => return if Path.base path = "sh" || Path.base path = "env" then .script path else .missing
    else return .missing

def findProgram (name : String) : StateM Session Found := do
  if name.contains '/' then programAt name
  else
    let dirs := Text.splitAt ':' (((← get).vars.get? "PATH").getD (":".intercalate systemDirs)).toList
    for dir in dirs do
      match ← programAt (Act.inside (String.ofList dir) name) with
      | .missing => continue
      | found => return found
    return .missing

/-- A session for a program of its own: it sees only what is exported. -/
def ownSession (name : String) (args : List String) (body : Exec Unit) : Exec Unit :=
  apart do
    modify fun s =>
      { s with
        vars := (s.vars.filter fun k _ => s.exported.contains k).insert "0" name
        args, functions := {}, strict := false }
    body

def assign (exports : Bool) (args : List String) : Exec Unit := do
  for a in args do
    let (name, value) := match Text.cut? ['='] a.toList with
      | some (n, v) => (String.ofList n, some (String.ofList v))
      | none => (a, none)
    if let some v := value then setVar name v
    if exports then modify fun s => { s with exported := s.exported.add name }

def settings (args : List String) : List String × List String :=
  args.span fun a =>
    match Text.cut? ['='] a.toList with
    | some (n, _) => isName n
    | none => false

def runFile (go : Command → Exec Unit) (path : String) (args : List String) : Exec Unit := do
  match ← act (Act.contentOf path) with
  | .error f =>
    complain s!"sh: 0: cannot open {path}: {reasonOf f}"
    throw (.exited 2)
  | .ok content => ownSession path args (runScript go (toText content.toList))

def runShell (go : Command → Exec Unit) (args : List String) : Exec Unit := do
  match args with
  | [] => do
    let script := toText (← takeInput)
    ownSession "sh" [] (runScript go script)
  | a :: rest =>
    if startsWith a "-" && a.contains 'c' then
      match rest with
      | script :: more =>
        ownSession (more.head?.getD "sh") more.tail do
          if a.contains 'e' then modify fun s => { s with strict := true }
          runScript go script
      | [] =>
        complain "sh: 0: -c requires an argument"
        setStatus 2
    else if startsWith a "-" then
      match rest with
      | path :: more => runFile go path more
      | [] => setStatus 0
    else runFile go a rest

def changeDir (args : List String) : Exec Unit := do
  let target := args.head?.getD (((← get).vars.get? "HOME").getD "/")
  let d := (← get).disk
  match d.find true target with
  | .ok (place, .dir _) =>
    modify fun s => { s with disk := { s.disk with cwd := place } }
    setStatus 0
  | _ =>
    complain s!"sh: 1: cd: can't cd to {target}"
    setStatus 2

def setOptions (args : List String) : Exec Unit := do
  match args with
  | "--" :: rest => modify fun s => { s with args := rest, status := 0 }
  | a :: _ =>
    if startsWith a "-" then
      modify fun s => { s with strict := s.strict || a.contains 'e', status := 0 }
    else if startsWith a "+" then
      modify fun s => { s with strict := s.strict && !a.contains 'e', status := 0 }
    else modify fun s => { s with args := args, status := 0 }
  | [] => setStatus 0

def readLine (names : List String) : Exec Unit := do
  let (line, rest) := (← get).input.span (· ≠ 10)
  let ended := !rest.isEmpty
  modify fun s => { s with input := rest.drop 1 }
  let text := toText line
  let rec fill : List String → List String → Exec Unit
    | [], _ => return
    | [n], ws => setVar n (" ".intercalate ws)
    | n :: ns, ws => do
      setVar n (ws.head?.getD "")
      fill ns ws.tail
  match names.filter fun n => !startsWith n "-" with
  | [n] => setVar n (trimBlank text)
  | ns => fill ns (words text)
  setStatus (if ended || !line.isEmpty then 0 else 1)

def sendSignal (args : List String) : Exec Unit := do
  let targets := args.filter fun a => !startsWith a "-"
  if targets.contains ownNumber && !args.contains "-0" then throw .killed
  setStatus (if targets.contains ownNumber then 0 else 1)

def runProgram (go : Command → Exec Unit) (fuel : Nat) (name : String) (args : List String) : Exec Unit :=
  match fuel with
  | 0 => throw .killed
  | fuel + 1 => do
    match ← findProgram name with
    | .tool t => setStatus (← t args)
    | .script path =>
      let isFile := (← entryAt? true path).isSome
      if isFile then runFile go path args
      else if Path.base path = "sh" then runShell go args
      else
        let (sets, rest) := settings args
        match rest with
        | [] => sayLines ((← get).vars.toList.filterMap fun _ => none)
        | program :: more =>
          apart do
            assign true sets
            runProgram go fuel program more
    | .denied =>
      complain s!"sh: 1: {name}: Permission denied"
      setStatus 126
    | .missing =>
      complain s!"sh: 1: {name}: not found"
      setStatus 127

/-- Runs a command of the shell itself; nothing comes out if the name is not one. -/
def builtin? (go : Command → Exec Unit) (name : String) (args : List String) : Option (Exec Unit) :=
  match name with
  | "exit" | "return" => some do
    let n := args.head?.bind fun a => Text.readInt? a.toList
    throw (.exited ((n.map fun n => (n % 256).toNat).getD (← get).status))
  | "break" => some (throw (.left false))
  | "continue" => some (throw (.left true))
  | "cd" => some (changeDir args)
  | "pwd" => some do
    say (Path.ofComponents (← get).disk.cwd ++ "\n")
    setStatus 0
  | "echo" => some do setStatus (← echo true args)
  | "export" | "local" | "readonly" => some do
    assign (name = "export") args
    setStatus 0
  | "unset" => some do
    for a in args do
      modify fun s => { s with vars := s.vars.erase a }
    setStatus 0
  | "set" => some (setOptions args)
  | "shift" => some (modify fun s => { s with args := s.args.drop 1, status := 0 })
  | "read" => some (readLine args)
  | "kill" => some (sendSignal args)
  | "eval" => some (runScript go (" ".intercalate args))
  | "umask" | "wait" | "trap" => some (setStatus 0)
  | "." => some do
    match ← act (Act.contentOf (args.head?.getD "")) with
    | .ok content => runScript go (toText content.toList)
    | .error _ =>
      let path := args.head?.getD ""
      complain s!"sh: 1: .: cannot open {path}"
      throw (.exited 2)
  | _ => none

def dispatch (go : Command → Exec Unit) (fuel : Nat) (args : List String) : Exec Unit :=
  match fuel, args with
  | 0, _ => throw .killed
  | _, [] => setStatus 0
  | fuel + 1, name :: rest => do
    match (← get).functions.get? name with
    | some body =>
      let saved := (← get).args
      modify fun s => { s with args := rest }
      go body
      modify fun s => { s with args := saved }
    | none =>
      match name, rest with
      | "command", "-v" :: n :: _ =>
        match ← findProgram n with
        | .missing => setStatus 127
        | _ =>
          say (n ++ "\n")
          setStatus 0
      | "command", rest => dispatch go fuel rest
      | "exec", [] => setStatus 0
      | "exec", rest =>
        dispatch go fuel rest
        throw (.exited (← get).status)
      | _, _ => (builtin? go name rest).getD (runProgram go (rest.length + 2) name rest)

end Taproom.Shell
