import Taproom.Scheduler.Basic

/-!
Builds that run as jobs of a cluster. Each is one dispatch of a job that takes its description as
metadata; how many may run is limited per platform.
-/

namespace Taproom

namespace Nomad

def jobName : String := "nbrew-build"

structure Job where
  type : String
  status : String
  metadata : Dict String String
  fault : Option Fault := none

def Job.isActive (j : Job) : Bool :=
  j.type = "batch" && (j.status = "running" || j.status = "pending")

end Nomad

structure Nomad where
  jobs : List Nomad.Job := []
  listFault : Option Fault := none
  dispatchFault : Option Fault := none
  slots : Dict String Int := {}
  callback : String

namespace Nomad

def defaultCallback : String := "http://localhost:8080/api/scheduler"

def callbackOf (env : Dict String String) : String :=
  match env.getD "NBREW_SCHEDULER_URL" "" with
  | "" => defaultCallback
  | url => trimSuffix url "/"

/-- The builds in progress. Jobs about which nothing can be learnt are left out. -/
def running (n : Nomad) : Except Fault (List Build) :=
  match n.listFault with
  | some f => .error f
  | none => .ok ((n.jobs.filter fun j => j.isActive && j.fault.isNone).map fun j =>
      Build.ofDict j.metadata)

def describe (n : Nomad) (b : Build) : Dict String String :=
  b.toDict.insert "callback_done" (n.callback ++ "/done")

def dispatch (b : Build) (n : Nomad) : Except Fault Unit × Nomad :=
  match n.running with
  | .error _ => (.error .noCapacity, n)
  | .ok builds =>
    let busy := (builds.filter fun o => o.platform = b.platform).length
    if (busy : Int) + 1 > n.slots.getD b.platform.tag 0 then (.error .noCapacity, n)
    else
      match n.dispatchFault with
      | some f => (.error f, n)
      | none =>
        (.ok (), { n with jobs := n.jobs ++
          [{ type := "batch", status := "running", metadata := n.describe b }] })

def provider : Provider Nomad := ⟨dispatch, running⟩

end Nomad

end Taproom
