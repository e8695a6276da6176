import Taproom.Program
import Taproom.Shell.Builtin
import Taproom.Text.Quoted

/-!
Running commands in a session, and the shell as a runner of programs. The depth of a run is
bounded, so that a script which waits for something that never comes is ended like one that was
killed.
-/

namespace Taproom.Shell

open Session Archive

def strictly (tested : Bool) : Exec Unit := do
  let s ← get
  if s.strict && !tested && s.status ≠ 0 then throw (.exited s.status)

/-- Runs a command. `tested` says that its status is about to be looked at. -/
def run (fuel : Nat) (tested : Bool) (c : Command) : Exec Unit :=
  match fuel with
  | 0 => throw .killed
  | fuel + 1 =>
    let go := run fuel tested
    let expand := expandText (capture go)
    let succeeded : Exec Bool := return (← get).status = 0
    match c with
    | .skip => setStatus 0
    | .simple sets words => do
      let args ← expandWords (capture go) words
      if args.isEmpty then
        setStatus 0
        for (name, w) in sets do
          setVar name (← expand w)
      else
        let saved := ((← get).vars, (← get).exported)
        for (name, w) in sets do
          let v ← expand w
          modify fun s => { s with vars := s.vars.insert name v, exported := s.exported.add name }
        dispatch go (args.length + 2) args
        if !sets.isEmpty then
          modify fun s => { s with vars := saved.1, exported := saved.2 }
      strictly tested
    | .redirected c rs => do
      redirected expand rs (go c)
      strictly tested
    | .pipe a b => do
      let content ← outputOf (← collecting (apart (run fuel true a)))
      let input := (← get).input
      modify fun s => { s with input := content }
      apart (run fuel true b)
      modify fun s => { s with input }
      strictly tested
    | .negated c => do
      run fuel true c
      modify fun s => { s with status := if s.status = 0 then 1 else 0 }
    | .both a b => do
      run fuel true a
      if ← succeeded then go b
    | .either a b => do
      run fuel true a
      if !(← succeeded) then go b
    | .seq a b => do
      go a
      go b
    | .branch test yes no => do
      run fuel true test
      if ← succeeded then go yes
      else
        setStatus 0
        go no
    | .loop stops test body => do
      run fuel true test
      if (← succeeded) != stops then
        match ← attempt (go body) with
        | .ok () | .error (.left true) => go (.loop stops test body)
        | .error (.left false) => setStatus 0
        | .error h => throw h
      else setStatus 0
    | .each name words body => do
      let items ← expandWords (capture go) words
      setStatus 0
      let rec turns : List String → Exec Unit
        | [] => return
        | item :: rest => do
          setVar name item
          match ← attempt (go body) with
          | .ok () | .error (.left true) => turns rest
          | .error (.left false) => setStatus 0
          | .error h => throw h
      turns items
    | .choose subject patterns body others => do
      let value ← expand subject
      let isOne (w : Word) : Exec Bool := do
        let f ← expandParts (capture go) w {}
        let m := f.toList.flatten
        return (patternOf m).elim (textOf m = value) fun alternatives => Glob.holds alternatives value
      if ← patterns.anyM isOne then go body else go others
    | .apart c => do
      apart (go c)
      strictly tested
    | .define name body => do
      modify fun s => { s with functions := s.functions.insert name body }
      setStatus 0

def depth : Nat := 3000

def start (path : Found) (p : Program) (args : List String) : Exec Unit :=
  match path with
  | .tool t => do setStatus (← t args)
  | .script path => do
    if (← entryAt? true path).isSome then runFile (run depth false) path args
    else if Path.base path = "sh" then runShell (run depth false) args
    else runProgram (run depth false) (p.args.length + 1) path args
  | _ => throw .killed

def namesRunner (content : ByteArray) : Bool := startsWith (toText (content.toList.take 2)) "#!"

def runner (env : Dict String String) : Program.Runner := fun p d =>
  match p.args with
  | [] => ({ code := -1 }, d)
  | "" :: _ => (.unstarted "exec: no command", d)
  | name :: args =>
    let vars := env.override (.ofList p.env)
    let outside : Session := { disk := d, vars := env }
    let byName := !name.contains '/'
    let found : Found := if byName then ((findProgram name).run outside).1 else .missing
    match byName, found with
    | true, .missing | true, .denied =>
      (.unstarted s!"exec: {quoted name}: executable file not found in $PATH", d)
    | _, _ =>
      match d.find true p.dir with
      | .error reason => (.unstarted s!"chdir {p.dir}: {reason.message}", d)
      | .ok (place, _) =>
        let here := { d with cwd := place }
        let found := if byName then found else ((programAt name).run { disk := here, vars }).1
        let refused (reason : Disk.Reason) : Program.Outcome × Disk :=
          (.unstarted s!"fork/exec {name}: {reason.message}", d)
        let session : Session :=
          { disk := here, vars := vars.insert "0" "sh"
            exported := .ofList vars.keys, input := ofText p.input }
        let ready : Except Disk.Reason Unit :=
          if !d.isDirectory p.dir then .error .notDirectory
          else
            match found with
            | .missing => .error .missing
            | .denied => .error .denied
            | .tool _ => .ok ()
            | .script path =>
              match here.content path with
              | .ok content => if namesRunner content then .ok () else .error .badFormat
              | .error _ => .ok ()
        match ready with
        | .error reason => refused reason
        | .ok () =>
          let (r, s) := (ExceptT.run (start found p args)).run session
          let output := toText (s.output.reverse.flatMap (·.content))
          let code : Int := match r with
            | .ok () => s.status
            | .error (.exited n) => n
            | .error (.left _) => 0
            | .error .killed => -1
          ({ output, code }, { s.disk with cwd := d.cwd })

end Taproom.Shell
