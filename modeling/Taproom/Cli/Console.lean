import Taproom.Config
import Taproom.Keg.Builder
import Taproom.Tap

/-!
What commands work on: the machine that they run on, its disk, and what they print.
-/

namespace Taproom.Cli

structure Machine where
  env : Dict String String := {}
  platform : Platform
  net : Http.Transport
  runner : Program.Runner
  temp : String
  now : String

/-- A disk, what programs wrote meanwhile, and what a command printed. -/
structure Console where
  workshop : Workshop
  output : String := ""

/-- A command at work. What was printed before a fault stays printed. -/
abbrev Job (α : Type) := ExceptT Fault (StateM Console) α

namespace Job

variable {α : Type}

def run (j : Job α) (c : Console) : Except Fault α × Console := (ExceptT.run j).run c

def ofBrew (b : Brew α) : Job α := ExceptT.mk do
  let c ← getThe Console
  let (r, w) := b.run c.workshop
  set { c with workshop := w }
  return r

instance : MonadLift (ExceptT Fault (StateM Workshop)) (ExceptT Fault (StateM Console)) := ⟨ofBrew⟩

def disk : Job Disk := return (← getThe Console).workshop.disk

def print (text : String) : Job Unit := modifyThe Console fun c => { c with output := c.output ++ text }

def printLine (text : String) : Job Unit := print (text ++ "\n")

def check (r : Except Fault α) : Job α := MonadExcept.ofExcept r

end Job

/-- What a command goes by: the configuration, and the platform that it acts for. -/
structure Setting where
  config : Config
  platform : Platform
  builder : Builder

namespace Setting

/-- Follows a configuration. The cellar and the cache are found from everywhere. -/
def ofConfig (m : Machine) (cwd tap tag : String) (c : Config) : Setting :=
  let c := { c with
    tapPath := if tap = "" then c.tapPath else tap
    cellar := Path.absolute cwd c.cellar
    cache := Path.absolute cwd c.cache }
  let platform := if tag = "" then m.platform else .ofTag tag
  { config := c, platform
    builder :=
      { cellar := c.cellar, fetcher := { cache := c.cache, net := m.net }, platform
        runner := m.runner, temp := m.temp, now := m.now } }

def tap (s : Setting) : Tap := ⟨s.config.tapPath⟩

end Setting

end Taproom.Cli
