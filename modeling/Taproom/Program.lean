import Taproom.Disk.Basic

/-!
Programs that the steps of a formula run.
-/

namespace Taproom

/-- A program to run: its arguments, the first of which names it, where it runs, the variables that
it gets beside those of the session, and its input. -/
structure Program where
  args : List String
  dir : String
  env : List (String × String) := []
  input : String := ""
  deriving DecidableEq, Repr

namespace Program

structure Outcome where
  output : String := ""
  /-- Its exit code; -1 if a signal ended it or it could not be started. -/
  code : Int := 0
  fault : Option String := none
  deriving DecidableEq, Repr

abbrev Runner := Program → Disk → Outcome × Disk

def Outcome.unstarted (reason : String) : Outcome := { code := -1, fault := some reason }

def Outcome.isSuccess (o : Outcome) : Bool := o.code = 0 && o.fault.isNone

def Outcome.report (o : Outcome) : String := o.output ++ o.fault.getD ""

end Program

end Taproom
