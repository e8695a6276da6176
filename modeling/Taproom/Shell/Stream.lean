import Taproom.Shell.Expand

/-!
Where the output of commands goes and where their input comes from.
-/

namespace Taproom.Shell

open Session Archive

inductive Sink where
  | output
  | errors
  | nowhere
  | file (path : String)
  deriving DecidableEq

def attempt {α : Type} (a : Exec α) : Exec (Except Halt α) := ExceptT.lift (ExceptT.run a)

def setStatus (n : Nat) : Exec Unit := modify fun s => { s with status := n }

def setVar (name value : String) : Exec Unit :=
  modify fun s => { s with vars := s.vars.insert name value }

def apart (body : Exec Unit) : Exec Unit := do
  let saved ← get
  let r ← attempt body
  modify fun s =>
    { s with
      vars := saved.vars, exported := saved.exported, args := saved.args
      functions := saved.functions, strict := saved.strict
      disk := { s.disk with cwd := saved.disk.cwd } }
  match r with
  | .ok () | .error (.left _) => return
  | .error (.exited n) => setStatus n
  | .error .killed => throw .killed

def collecting (body : Exec Unit) : Exec (List Piece) := do
  let saved := (← get).output
  modify fun s => { s with output := [] }
  let r ← attempt body
  let pieces := (← get).output.reverse
  modify fun s => { s with output := saved }
  match r with
  | .ok () => return pieces
  | .error h =>
    modify fun s => { s with output := pieces.reverse ++ saved }
    throw h

def outputOf (pieces : List Piece) : Exec Bytes := do
  let (errors, outs) := pieces.partition (·.isError)
  modify fun s => { s with output := errors.reverse ++ s.output }
  return outs.flatMap (·.content)

def runScript (go : Command → Exec Unit) (script : String) : Exec Unit := do
  match Command.ofScript? script with
  | some c => go c
  | none =>
    complain "sh: 1: Syntax error: Unterminated quoted string"
    throw (.exited 2)

def capture (go : Command → Exec Unit) (script : String) : Exec String := do
  let content ← outputOf (← collecting (apart (runScript go script)))
  return String.ofList ((toText content).toList.reverse.dropWhile (· = '\n')).reverse

def openSink (append : Bool) (path : String) : Exec Sink := do
  match path with
  | "/dev/null" => return .nowhere
  | "/dev/stderr" => return .errors
  | "/dev/stdout" => return .output
  | path =>
    if append && (← entryAt? true path).isSome && !(← isDir path) then return .file path
    match ← act (Act.putFile path .empty 0o666) with
    | .ok () => return .file path
    | .error f =>
      let reason := match f.root with
        | .disk ⟨_, _, .missing⟩ => "Directory nonexistent"
        | f => reasonOf f
      complain s!"sh: 1: cannot create {path}: {reason}"
      throw (.exited 2)

def pour (out err : Sink) (p : Piece) : Exec Unit := do
  match if p.isError then err else out with
  | .output => put false p.content
  | .errors => put true p.content
  | .nowhere => return
  | .file path =>
    let old := ((← get).disk.content path).toOption.getD .empty
    let _ ← act (Act.putFile path (old ++ ⟨p.content.toArray⟩) 0o666)

/-- Works out where the streams go; the input is changed on the way. -/
def direct (expand : Word → Exec String) (rs : List Redirect) : Exec (Sink × Sink) :=
  rs.foldlM (fun (out, err) r => do
    match r with
    | .read w =>
      let path ← expand w
      if path = "/dev/null" then
        modify fun s => { s with input := [] }
      else
        match ← act (Act.contentOf path) with
        | .ok content => modify fun s => { s with input := content.toList }
        | .error _ =>
          complain s!"sh: 1: cannot open {path}: No such file"
          throw (.exited 2)
      return (out, err)
    | .here w =>
      let text ← expand w
      modify fun s => { s with input := ofText text }
      return (out, err)
    | .write stream append w =>
      let sink ← openSink append (← expand w)
      return if stream = 2 then (out, sink) else (sink, err)
    | .join stream w =>
      match ← expand w with
      | "1" => return if stream = 2 then (out, out) else (out, err)
      | "2" => return if stream = 2 then (out, err) else (err, err)
      | _ => return (out, err)) (.output, .errors)

def redirected (expand : Word → Exec String) (rs : List Redirect) (body : Exec Unit) : Exec Unit := do
  let input := (← get).input
  match ← attempt (direct expand rs) with
  | .error (.exited n) => setStatus n
  | .error h => throw h
  | .ok (out, err) =>
    let saved := (← get).output
    modify fun s => { s with output := [] }
    let r ← attempt body
    let pieces := (← get).output.reverse
    modify fun s => { s with output := saved }
    for p in pieces do
      pour out err p
    if rs.any fun
      | .read _ | .here _ => true
      | _ => false then
      modify fun s => { s with input := input }
    MonadExcept.ofExcept r

end Taproom.Shell
