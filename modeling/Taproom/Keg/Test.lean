import Taproom.Keg.Builder
import Taproom.Regex.Reader

/-!
Tests of kegs: programs whose exit code and output have to be as the formula says.
-/

namespace Taproom.Builder

def runTest (b : Builder) (name : String) (i : Nat) (t : TestStep) (dir : String) (v : Variables) :
    Brew Unit := do
  let program : Program :=
    { args := t.run.map v.expand, dir, env := [("PREFIX", v.getD "prefix" "")], input := v.expand t.input }
  let o ← Brew.runProgram b.runner program
  let failed : Fault := .failedStep ⟨name, "test", i, o.code, o.report⟩
  if o.code ≠ t.exitCode then throw failed
  if t.expect ≠ "" then
    match Regex.parse ("(?m)" ++ t.expect) with
    | .error f => throw (.during s!"test step {i}" (.told f.message))
    | .ok r => if !r.occursIn o.report then throw failed

def runTests (b : Builder) (name dir : String) (v : Variables) (i : Nat) : List TestStep → Brew Unit
  | [] => return
  | t :: rest => do
    b.runTest name i t dir v
    runTests b name dir v (i + 1) rest

def test (b : Builder) (f : Formula) (head : Bool) : Brew Unit := do
  let keg ← MonadExcept.ofExcept (b.kegPath f head)
  if !(← (Act.exists? keg : Act Bool)) then throw (.told s!"{f.name} is not installed")
  if f.test.isEmpty then return
  let dir ← Act.makeTempDir b.temp ("nbrew-test-" ++ f.name ++ "-")
  let work : Brew Unit := do
    let version ← if head then pure "HEAD" else MonadExcept.ofExcept (versionOf f)
    b.runTests f.name dir ((Variables.ofKeg f.name version keg).insert "testpath" dir) 0 f.test
  work.andAlways (Act.removeAll dir)

end Taproom.Builder
