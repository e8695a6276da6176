import Taproom.Cli.Help

/-!
Completing a command line whose last word is not finished yet.
-/

namespace Taproom.Cli

/-- What the shell should do besides offering the proposals. -/
inductive Directive where
  | standard
  | noFiles
  deriving DecidableEq, Repr

def Directive.code : Directive → Nat
  | standard => 0
  | noFiles => 4

/-- Proposals for a word, each with a description. -/
structure Completion where
  proposals : List (String × String) := []
  directive : Directive := .standard
  deriving DecidableEq, Repr

namespace Completion

def requests : List (String × Bool) := [("__complete", true), ("__completeNoDesc", false)]

def request? (words : List String) : Option (Bool × List String) :=
  match plainWords words with
  | [] => none
  | name :: _ => (requests.lookup name).map fun described => (described, dropName name words)

def render (described : Bool) (c : Completion) : String :=
  let line (p : String × String) : String :=
    (if described then trimBlank (p.1 ++ "\t" ++ p.2) else p.1) ++ "\n"
  String.join (c.proposals.map line) ++ s!":{c.directive.code}\n"

def isFlag (word : String) : Bool :=
  match word.toList with
  | '-' :: '-' :: _ :: _ => true
  | '-' :: c :: _ => c ≠ '-'
  | _ => false

def flag? (flags : List Flag) (name : List Char) : Option Flag :=
  match name with
  | [c] => flags.find? (·.short = some c)
  | _ => flags.find? (·.name = String.ofList name)

/-- The name in a flag, which is the last letter of a group of letters. -/
def nameIn (word : List Char) : List Char :=
  match word with
  | '-' :: '-' :: name => name
  | _ => word.getLast?.toList

/-- What the last word belongs to. -/
inductive Subject where
  | word
  | value
  | unknown
  deriving DecidableEq, Repr

/-- Tells what the last word belongs to, with the words before it that count and what is left of
the word. -/
def subject (flags : List Flag) (words : List String) (last : String) : Subject × List String × String :=
  let chars := last.toList
  if chars.head? = some '-' && chars.contains '=' then
    let name := nameIn (chars.takeWhile (· ≠ '='))
    if name.isEmpty then before (String.ofList ((chars.dropWhile (· ≠ '=')).drop 1))
    else if (flag? flags name).isSome then
      (.value, words, String.ofList ((chars.dropWhile (· ≠ '=')).drop 1))
    else (.unknown, words, last)
  else if chars.head? = some '-' then (.word, words, last)
  else before last
where
  before (last : String) : Subject × List String × String :=
    match words.getLast? with
    | none => (.word, words, last)
    | some previous =>
      if !isFlag previous || previous.contains '=' then (.word, words, last)
      else
        match flag? flags (nameIn previous.toList) with
        | none => (.unknown, words, last)
        | some f => if f.isSwitch then (.word, words, last) else (.value, words.dropLast, last)

def flagForms (last : String) (f : Flag) : List (String × String) :=
  let forms := ("--" ++ f.name) :: (f.short.map fun c => s!"-{c}").toList
  (forms.filter (startsWith · last)).map fun form => (form, f.usage)

/-- The flags of a command that were not given and that a word begins; those that it shares with
others come first. -/
def flagProposals (config : String) (c : Option Command) (given : List String) (last : String) :
    List (String × String) :=
  let sorted (l : List Flag) := l.mergeSort fun f g => decide (f.name ≤ g.name)
  let flags := match c with
    | none => sorted (flagsOf config none)
    | some c => sorted (sharedFlags config) ++ sorted (helpFlag c.name :: c.ownFlags)
  (flags.filter fun f => !given.contains f.name).flatMap (flagForms last)

def commandProposals (c : Option Command) (last : String) : List (String × String) :=
  (listed c).filter fun (name, _) => startsWith name last

def argumentProposals (c : Option Command) (args : List String) (last : String) : Option Completion :=
  match c with
  | some .help =>
    match choose args with
    | .ok (topic, _) => some ⟨commandProposals topic last, .noFiles⟩
    | .error _ => some ⟨[], .noFiles⟩
  | some .completion | some (.script _) => some ⟨[], .noFiles⟩
  | _ => none

def isEnded (flags : List Flag) (words : List String) (args : List String) : Bool :=
  match Flag.read flags (words ++ ["--"]) with
  | .ok l => l.args.length > args.length
  | .error _ => false

def ofWords (config : String) (words : List String) : Completion :=
  match (if (request? words.dropLast).isSome then none else (choose words.dropLast).toOption) with
  | none => {}
  | some (c, before) =>
    let flags := flagsOf config c
    let (subject, before, last) := subject flags before (words.getLastD "")
    match Flag.read flags before with
    | .error _ => {}
    | .ok l =>
      let ended := isEnded flags before l.args
      if subject = .unknown && !ended then {}
      else if l.given.contains "help" then ⟨[], .noFiles⟩
      else if subject ≠ .value && startsWith last "-" && !last.contains '=' && !ended then
        ⟨flagProposals config c l.given last, .noFiles⟩
      else
        let below : Completion :=
          if subject ≠ .value && l.args.isEmpty && !(Command.children c).isEmpty then
            ⟨commandProposals c last, .noFiles⟩
          else {}
        match (if subject = .value && !ended then none else argumentProposals c l.args last) with
        | some more => ⟨below.proposals ++ more.proposals, more.directive⟩
        | none => below

end Completion

end Taproom.Cli
