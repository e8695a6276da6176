import Taproom.Http.Route
import Taproom.Manager.Client
import Taproom.Scheduler.Build

/-!
A scheduler asks a manager what could be built, queues it, and hands it to whoever has capacity.
-/

namespace Taproom

structure Provider (σ : Type) where
  dispatch : Build → σ → Except Fault Unit × σ
  running : σ → Except Fault (List Build)

def providerNames : List String := ["local", "nomad"]

structure Scheduler where
  queue : List Build := []
  platforms : List Platform := []

namespace Scheduler

def require (hasGraph hasCapacity : Bool) : Except Fault Unit :=
  if !hasGraph then .error (.told "scheduler requires a graph url")
  else if !hasCapacity then .error (.told "scheduler requires a capacity provider")
  else .ok ()

def checkProvider (name : String) : Except Fault Unit :=
  if providerNames.contains name then .ok () else .error (.unknownProvider name providerNames)

def emptyQueue : Fault := .told "none in queue"

def send {σ : Type} (p : Provider σ) (s : Scheduler) (st : σ) :
    Except Fault Unit × Scheduler × σ :=
  match s.queue with
  | [] => (.error emptyQueue, s, st)
  | b :: rest =>
    match p.dispatch b st with
    | (.ok (), st) => (.ok (), { s with queue := rest }, st)
    | (.error f, st) => (.error f, s, st)

def precedes (a b : Build) : Bool :=
  if a.platform.tag ≠ b.platform.tag then decide (a.platform.tag ≤ b.platform.tag)
  else decide (a.package ≤ b.package)

def asked (d : Dispatchable) : List Build :=
  d.byPlatform.flatMap fun (p, names) => names.map fun n => ⟨p, n, d.revision⟩

/-- The queue for an answer of the manager when some builds are in progress already. -/
def plan (d : Dispatchable) (running : List Build) : List Build :=
  ((asked d).filter fun b => !running.contains b).mergeSort precedes

def adopt (s : Scheduler) (d : Dispatchable) (queue : List Build) : Scheduler where
  queue
  platforms := d.byPlatform.foldl (fun ps (p, _) => ps.insert p) s.platforms

def reconstruct {σ : Type} (c : Manager.Client) (p : Provider σ) (s : Scheduler) (st : σ) :
    Except Fault Scheduler := do
  let d ← c.dispatchable
  let running ← p.running st
  return s.adopt d (plan d running)

def update {σ : Type} (c : Manager.Client) (p : Provider σ) (s : Scheduler) (st : σ) :
    Except Fault Scheduler :=
  let _ := s.platforms.map fun q => c.clean q.tag
  s.reconstruct c p st

/-- One turn: a build is handed over, or the queue is made anew if it is empty. -/
def turn {σ : Type} (c : Manager.Client) (p : Provider σ) (s : Scheduler) (st : σ) :
    Scheduler × σ :=
  match s.send p st with
  | (.ok (), s, st) => (s, st)
  | (.error _, s, st) =>
    if s.queue.isEmpty then ((s.update c p st).toOption.getD s, st) else (s, st)

def turns {σ : Type} (c : Manager.Client) (p : Provider σ) : Nat → Scheduler → σ → Scheduler × σ
  | 0, s, st => (s, st)
  | n + 1, s, st =>
    let (s, st) := s.turn c p st
    turns c p n s st

def runFor {σ : Type} (c : Manager.Client) (p : Provider σ) (n : Nat) (s : Scheduler) (st : σ) :
    Scheduler × σ :=
  let s := (s.reconstruct c p st).toOption.getD s
  let s := (s.update c p st).toOption.getD s
  turns c p n s st

def queueAnswer (s : Scheduler) : Http.Response :=
  .json 200 (.arr (s.queue.map fun b =>
    .obj [("Platform", .str b.platform.tag), ("Formula", .str b.package),
      ("Revision", .str b.rev)]))

def doneAnswer {σ : Type} (c : Manager.Client) (p : Provider σ) (s : Scheduler) (st : σ) :
    Http.Response × Scheduler :=
  match s.update c p st with
  | .ok s => (.empty 204, s)
  | .error _ => (.empty 500, s)

def answer {σ : Type} (c : Manager.Client) (p : Provider σ) (call : Http.Call) (s : Scheduler)
    (st : σ) : Http.Response × Scheduler :=
  let routes : List (Http.Route (Http.Response × Scheduler)) :=
    [⟨"GET", "/done", fun _ => s.doneAnswer c p st⟩, ⟨"GET", "/queue", fun _ => (s.queueAnswer, s)⟩]
  match Http.choose routes call with
  | .handler h => h
  | .wrongMethod => (.wrongMethod, s)
  | .notFound => (.notFound, s)

end Scheduler

end Taproom
