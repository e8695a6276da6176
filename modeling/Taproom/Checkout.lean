import Taproom.Disk.Action

/-!
Checkouts: how a tap comes to be on the disk and moves from one revision to another.
-/

namespace Taproom

structure Checkout where
  bootstrap : Act Unit
  fetch : Act Unit
  moveTo : String → Act (List String)
  current : Act String
  /-- The revision that is noted when the present one cannot be told. -/
  lastKnown : Disk → String := fun _ => ""

/-- A plain directory as a tap. It has one revision, which it gets when it is made available. -/
structure PlainTap where
  path : String := ""
  rev : String := ""
  deriving DecidableEq, Repr

namespace PlainTap

def bootstrap (t : PlainTap) (rev : String) : Act PlainTap := do
  match ← Act.stat t.path with
  | .dir _ => return { t with rev }
  | _ => throw (.told s!"{t.path} is not a directory")

def current (t : PlainTap) : Except Fault String :=
  if t.rev = "" then .error (.told "tap is not bootstrapped") else .ok t.rev

def moveTo (t : PlainTap) (rev : String) : Except Fault (List String) :=
  if rev = t.rev then .ok [] else .error (.told s!"local tap cannot move to {rev}")

def toCheckout (t : PlainTap) : Checkout where
  bootstrap := do let _ ← t.bootstrap t.rev
  fetch := return
  moveTo rev := MonadExcept.ofExcept (t.moveTo rev)
  current := MonadExcept.ofExcept t.current

end PlainTap

end Taproom
