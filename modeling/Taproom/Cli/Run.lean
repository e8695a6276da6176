import Taproom.Cli.Completion
import Taproom.Cli.Make
import Taproom.Server

/-!
Running a command line from its words to what it prints.
-/

namespace Taproom.Cli

open Job (print check disk)

def defaultConfig (m : Machine) : String := m.env.getD "NBREW_CONFIG" ""

def showHelp (config : String) (topic : List String) : Job Unit :=
  match choose topic with
  | .ok (c, _) => print (pageOf config c).render
  | .error _ => print (unknownTopic config topic)

def settingOf (m : Machine) (l : Line) : Job Setting := do
  let d ← disk
  let config ← check (Config.load d (l.text "config") m.env)
  return .ofConfig m (Path.ofComponents d.cwd) (l.text "tap") (l.text "platform") config

def perform (m : Machine) (c : Command) (s : Setting) (l : Line) : Job Unit :=
  let head := l.isOn "head"
  match c with
  | .lint => lint s l.args
  | .info => info s l.args
  | .deps => deps s (l.text "kinds") l.args
  | .order => order s (l.text "kinds") l.args
  | .uses => uses s l.args
  | .leaves => leaves s
  | .fetch => fetch s l.args
  | .install => install s ⟨l.isOn "build-from-source", head, l.isOn "keep-tmp"⟩ l.args
  | .test => test s head l.args
  | .service => service s (l.args.headD "")
  | .bottle => bottle s (l.text "output") (l.args.headD "")
  | .serve => do
    let _ ← Server.start m.net m.env ("local-" ++ m.now) s.config
  | .help => showHelp (defaultConfig m) l.args
  | .completion | .script _ => return

def propose (m : Machine) (described : Bool) (words : List String) : Job Unit := do
  check (Arity.check (.atLeast 1) program words)
  let _ ← settingOf m { values := .ofList [("config", defaultConfig m)] }
  print ((Completion.ofWords (defaultConfig m) words).render described)

def run (m : Machine) (words : List String) : Job Unit := do
  let config := defaultConfig m
  if let some (described, words) := Completion.request? words then
    return ← propose m described words
  let (c, words) ← check (choose words)
  let l ← check (Flag.read (flagsOf config c) words)
  match c with
  | none => print (pageOf config none).render
  | some c =>
    if l.isOn "help" || c = .completion then print (c.page config).render
    else
      check (c.checkArgs l.args)
      perform m c (← settingOf m l) l

end Taproom.Cli
