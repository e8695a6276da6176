import Taproom.Cli.Flag
import Taproom.Text.Distance
import Taproom.Text.Utf8

/-!
The commands, how a command line is cut into one of them and its words, and what a mistyped one
may have meant.
-/

namespace Taproom.Cli

def program : String := "nbrew"

inductive Script where
  | bash
  | zsh
  | fish
  | powershell
  deriving DecidableEq, Repr

namespace Script

def all : List Script := [bash, zsh, fish, powershell]

def name : Script → String
  | bash => "bash"
  | zsh => "zsh"
  | fish => "fish"
  | powershell => "powershell"

end Script

inductive Command where
  | lint
  | info
  | deps
  | order
  | uses
  | leaves
  | fetch
  | install
  | test
  | service
  | bottle
  | serve
  | help
  | completion
  | script (s : Script)
  deriving DecidableEq, Repr

inductive Arity where
  | any
  | none
  | exactly (n : Nat)
  | atLeast (n : Nat)
  deriving DecidableEq, Repr

namespace Command

def all : List Command :=
  [lint, info, deps, order, uses, leaves, fetch, install, test, service, bottle, serve, help,
   completion]

def name : Command → String
  | lint => "lint"
  | info => "info"
  | deps => "deps"
  | order => "order"
  | uses => "uses"
  | leaves => "leaves"
  | fetch => "fetch"
  | install => "install"
  | test => "test"
  | service => "service"
  | bottle => "bottle"
  | serve => "serve"
  | help => "help"
  | completion => "completion"
  | script s => s.name

def children : Option Command → List Command
  | none => all
  | some completion => Script.all.map script
  | some _ => []

def path : Command → String
  | script s => s!"{program} completion {s.name}"
  | c => s!"{program} {c.name}"

def pattern : Command → String
  | lint => "[formula...]"
  | info | uses | service | bottle => "<formula>"
  | deps | order | fetch | install | test => "<formula...>"
  | help => "[command]"
  | leaves | serve | completion | script _ => ""

def summary : Command → String
  | lint => "Check formulae for problems"
  | info => "Show what is known about a formula"
  | deps => "List the dependencies of formulae in install order"
  | order => "Show the levels formulae would be installed in"
  | uses => "List the formulae that depend on a formula"
  | leaves => "List the formulae that nothing depends on"
  | fetch => "Download and verify sources and resources into the cache"
  | install => "Install formulae and their dependencies"
  | test => "Run the tests of installed formulae"
  | service => "Print the service descriptor of a formula for this platform"
  | bottle => "Pack the newest installed keg of a formula into a bottle"
  | serve => "Run the graph, scheduler and bottle reciever"
  | help => "Help about any command"
  | completion => "Generate the autocompletion script for the specified shell"
  | script s => "Generate the autocompletion script for " ++ s.name

def arity : Command → Arity
  | info | uses | service | bottle => .exactly 1
  | deps | order | fetch | install | test => .atLeast 1
  | leaves | serve | script _ => .none
  | lint | help | completion => .any

def ownFlags : Command → List Flag
  | deps | order =>
    [{ name := "kinds", default := "build,run"
       usage := "dependency kinds to follow (build,run,test)" }]
  | install =>
    [{ name := "build-from-source", short := some 's', isSwitch := true, default := "false"
       usage := "never pour bottles" },
     { name := "head", isSwitch := true, default := "false"
       usage := "install the head source of the named formulae" },
     { name := "keep-tmp", isSwitch := true, default := "false", usage := "keep the build directory" }]
  | test => [{ name := "head", isSwitch := true, default := "false", usage := "test the head keg" }]
  | bottle =>
    [{ name := "output", short := some 'o', default := ".", usage := "directory to write the bottle to" }]
  | script _ =>
    [{ name := "no-descriptions", isSwitch := true, default := "false"
       usage := "disable completion descriptions" }]
  | _ => []

end Command

def helpFlag (subject : String) : Flag :=
  { name := "help", short := some 'h', isSwitch := true, default := "false"
    usage := "help for " ++ subject }

def sharedFlags (config : String) : List Flag :=
  [{ name := "config", default := config, usage := "config file (yaml or json)" },
   { name := "log-level", default := "WARN", usage := "log level" },
   { name := "tap", usage := "path to the tap (overrides the config)" },
   { name := "platform", usage := "bottle tag to act for (default: this host)" }]

def Arity.check (a : Arity) (path : String) (args : List String) : Except Fault Unit :=
  match a with
  | .any => .ok ()
  | .none =>
    match args with
    | [] => .ok ()
    | a :: _ => .error (.told s!"unknown command {quoted a} for {quoted path}")
  | .exactly n =>
    if args.length = n then .ok ()
    else .error (.told s!"accepts {n} arg(s), received {args.length}")
  | .atLeast n =>
    if args.length ≥ n then .ok ()
    else .error (.told s!"requires at least {n} arg(s), only received {args.length}")

def Command.checkArgs (c : Command) (args : List String) : Except Fault Unit :=
  c.arity.check c.path args

/-- Whether a word before the command is a flag that takes the next word with it. -/
def takesNext (word : String) : Bool :=
  !word.contains '=' && ((startsWith word "--") || (startsWith word "-" && word.length = 2))

def plainWords : List String → List String
  | [] => []
  | word :: rest =>
    if word = "--" then []
    else if takesNext word then
      match rest with
      | _ :: next :: rest => plainWords (next :: rest)
      | _ => []
    else if word = "" || startsWith word "-" then plainWords rest
    else word :: plainWords rest

def dropName (name : String) : List String → List String
  | [] => []
  | word :: rest =>
    if word = "--" then word :: rest
    else if takesNext word then
      match rest with
      | value :: rest => word :: value :: dropName name rest
      | [] => [word]
    else if word = name then rest
    else word :: dropName name rest

def lowered (c : Char) : Char :=
  if c.toNat = 0x130 then 'i' else if c.toNat = 0x212a then 'k' else Url.toLower c

/-- The commands that a mistyped name may have meant: those that it begins, and those that are at
most two edits of bytes away. -/
def proposals (typed : String) : List String :=
  let typed := Utf8.encode (typed.toList.map lowered)
  (Command.all.filter fun c => c ≠ .help && (typed.isPrefixOf (Utf8.encode c.name.toList) ||
    Text.distance typed (Utf8.encode c.name.toList) ≤ 2)).map Command.name

def unknownCommand (typed : String) : Fault :=
  let proposed := proposals typed
  let hint := if proposed.isEmpty then ""
    else "\n\nDid you mean this?\n" ++ String.join (proposed.map fun n => "\t" ++ n ++ "\n")
  .told (s!"unknown command {quoted typed} for {quoted program}" ++ hint)

/-- Goes down to the command that the words name, which are left without the names on the way. -/
def descend (start : Option Command) : Nat → List String → Option Command × List String
  | 0, words => (start, words)
  | depth + 1, words =>
    match plainWords words with
    | [] => (start, words)
    | name :: _ =>
      match (Command.children start).find? (·.name = name) with
      | some c => descend (some c) depth (dropName name words)
      | none => (start, words)

def maxDepth : Nat := 2

/-- The command of a command line and its words, or nothing if no command is named. -/
def choose (words : List String) : Except Fault (Option Command × List String) :=
  match descend none maxDepth words with
  | (none, words) =>
    match plainWords words with
    | [] => .ok (none, words)
    | name :: _ => .error (unknownCommand name)
  | found => .ok found

def flagsOf (config : String) : Option Command → List Flag
  | none => helpFlag program :: sharedFlags config
  | some c => helpFlag c.name :: c.ownFlags ++ sharedFlags config

end Taproom.Cli
