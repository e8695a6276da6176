import Taproom.Cli.Command

/-!
Help pages: what a command does, how it is called, and its flags.
-/

namespace Taproom.Cli

def padTo (width : Nat) (s : String) : String := s ++ String.ofList (List.replicate (width - s.length) ' ')

def Flag.form (f : Flag) : String :=
  let short := match f.short with
    | some c => s!"  -{c}, "
    | none => "      "
  let value := if f.isSwitch then "" else " string"
  short ++ "--" ++ f.name ++ value

def Flag.description (f : Flag) : String :=
  if f.isSwitch || f.default = "" then f.usage else s!"{f.usage} (default {quoted f.default})"

def flagTable (flags : List Flag) : String :=
  let sorted := flags.mergeSort fun f g => decide (f.name ≤ g.name)
  let width := sorted.foldl (fun n f => max n f.form.length) 0
  String.join (sorted.map fun f => padTo (width + 3) f.form ++ f.description ++ "\n")

structure Page where
  intro : String
  path : String
  call : Option String := none
  commands : List (String × String) := []
  flags : List Flag
  shared : List Flag := []

namespace Page

def usage (p : Page) : String :=
  let call := match p.call with
    | some c => s!"  {c}\n"
    | none => ""
  let isGroup := !p.commands.isEmpty
  let group := if isGroup then s!"  {p.path} [command]\n" else ""
  let commands := p.commands.map fun (name, summary) => s!"  {padTo 12 name}{summary}\n"
  let listed := if isGroup then "\nAvailable Commands:\n" ++ String.join commands else ""
  let shared := if p.shared.isEmpty then "" else "\nGlobal Flags:\n" ++ flagTable p.shared
  let hint := if isGroup then
      "\nUse \"" ++ p.path ++ " [command] --help\" for more information about a command.\n"
    else ""
  "Usage:\n" ++ call ++ group ++ listed ++ "\nFlags:\n" ++ flagTable p.flags ++ shared ++ hint

def render (p : Page) : String := p.intro ++ "\n\n" ++ p.usage

end Page

def intro : String :=
  "nbrew reads declarative formulae from a tap, resolves their
dependencies, and installs them into a cellar by pouring bottles or
building from source.

Examples:
  # Check every formula in the tap
  nbrew lint

  # Show the install order for a formula
  nbrew order hello

  # Build and install from source
  nbrew install --build-from-source hello"

def listing (c : Option Command) : List Command :=
  (Command.children c).mergeSort fun a b => decide (a.name ≤ b.name)

def listed (c : Option Command) : List (String × String) :=
  (listing c).map fun c => (c.name, c.summary)

def programPage (config : String) : Page where
  intro
  path := program
  commands := listed none
  flags := flagsOf config none

namespace Script

def intro : Script → String
  | bash => "Generate the autocompletion script for the bash shell.

This script depends on the 'bash-completion' package.
If it is not installed already, you can install it via your OS's package manager.

To load completions in your current shell session:

\tsource <(nbrew completion bash)

To load completions for every new session, execute once:

#### Linux:

\tnbrew completion bash > /etc/bash_completion.d/nbrew

#### macOS:

\tnbrew completion bash > $(brew --prefix)/etc/bash_completion.d/nbrew

You will need to start a new shell for this setup to take effect."
  | zsh => "Generate the autocompletion script for the zsh shell.

If shell completion is not already enabled in your environment you will need
to enable it.  You can execute the following once:

\techo \"autoload -U compinit; compinit\" >> ~/.zshrc

To load completions in your current shell session:

\tsource <(nbrew completion zsh)

To load completions for every new session, execute once:

#### Linux:

\tnbrew completion zsh > \"$\x7bfpath[1]\x7d/_nbrew\"

#### macOS:

\tnbrew completion zsh > $(brew --prefix)/share/zsh/site-functions/_nbrew

You will need to start a new shell for this setup to take effect."
  | fish => "Generate the autocompletion script for the fish shell.

To load completions in your current shell session:

\tnbrew completion fish | source

To load completions for every new session, execute once:

\tnbrew completion fish > ~/.config/fish/completions/nbrew.fish

You will need to start a new shell for this setup to take effect."
  | powershell => "Generate the autocompletion script for powershell.

To load completions in your current shell session:

\tnbrew completion powershell | Out-String | Invoke-Expression

To load completions for every new session, add the output of the above command
to your powershell profile."

end Script

def Command.page (config : String) (c : Command) : Page :=
  let call := if c.pattern = "" then c.path else s!"{c.path} {c.pattern}"
  let base : Page :=
    { intro := c.summary, path := c.path, call := some (call ++ " [flags]")
      flags := helpFlag c.name :: c.ownFlags, shared := sharedFlags config }
  match c with
  | .help => { base with intro :=
      "Help provides help for any command in the application.
Simply type nbrew help [path to command] for full details." }
  | .completion => { base with
      intro := "Generate the autocompletion script for nbrew for the specified shell.
See each sub-command's help for details on how to use the generated script."
      call := none
      commands := listed (some c) }
  | .script .bash => { base with intro := Script.bash.intro, call := some call }
  | .script s => { base with intro := s.intro }
  | _ => base

def pageOf (config : String) : Option Command → Page
  | none => programPage config
  | some c => c.page config

/-- A text between backquotes, or between double quotes where they would not do. -/
def backquoted (s : String) : String :=
  let fits (c : Char) : Bool :=
    c.toNat ≠ 0x60 && c.toNat ≠ 0x7f && c.toNat ≠ 0xfeff && (c = '\t' || 0x20 ≤ c.toNat)
  if s.toList.all fits then "\x60" ++ s ++ "\x60" else quoted s

def unknownTopic (config : String) (topic : List String) : String :=
  let page := { programPage config with flags := sharedFlags config }
  "Unknown help topic [" ++ " ".intercalate (topic.map backquoted) ++ "]\n" ++ page.usage

end Taproom.Cli
