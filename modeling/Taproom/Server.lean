import Taproom.Config
import Taproom.Git.Tap
import Taproom.Manager.Api
import Taproom.Receiver
import Taproom.Scheduler.Basic

/-!
A server puts a manager and a receiver behind one address. What the receiver takes, the manager
hears of.
-/

namespace Taproom

structure Server where
  net : Http.Transport
  checkout : Checkout
  manager : Manager
  receiver : Option Receiver := none

namespace Server

def graphMount : String := "/api/graph"

def receiverMount : String := "/api/reciever"

/-- The tap that a configuration names. A plain directory has the revision `rev`. -/
def checkoutOf (net : Http.Transport) (cfg : Config) (rev : String) : Checkout :=
  if cfg.tapUrl = "" then ({ path := cfg.tapPath, rev } : PlainTap).toCheckout
  else ({ path := cfg.tapPath, url := cfg.tapUrl } : Git.Tap).toCheckout net

def bootstrap (c : Checkout) (m : Manager) : Act Manager := do
  let (r, m, d) := m.bootstrap c (← get)
  set d
  MonadExcept.ofExcept r
  return m

def checkCapacity (cfg : Config) : Except Fault Unit := do
  if cfg.capacityProvider = "" then return
  Scheduler.checkProvider cfg.capacityProvider
  Scheduler.require (cfg.graphUrl ≠ "") true

def start (net : Http.Transport) (env : Dict String String) (rev : String) (cfg : Config) :
    Act Server := do
  let store ← Store.openNew env cfg.storageProvider
  let checkout := checkoutOf net cfg rev
  let m ← bootstrap checkout (.fresh ⟨cfg.tapPath⟩ cfg.platformList (some store))
  let manager := m.loadIndexes net (← get) cfg.indexUrls
  MonadExcept.ofExcept (checkCapacity cfg)
  return { net, checkout, manager, receiver := some ⟨cfg.receiverPath⟩ }

def isHeartbeat (call : Http.Call) : Bool :=
  ["GET", "HEAD"].contains call.method && Json.lower call.path = "/healthz"

def plain (text : String) : Http.Response := .text 200 "text/plain; charset=utf-8" text

def rootAnswer (call : Http.Call) : Http.Response :=
  let routes : List (Http.Route Http.Response) := [⟨"GET", "/", fun _ =>
    plain "nbrew is running, check other handlers for more information"⟩]
  match Http.choose routes call with
  | .handler r => r
  | .wrongMethod => .wrongMethod
  | .notFound => .notFound

/-- Has the receiver answer. A bottle that no graph is kept for is taken all the same. -/
def receiverAnswer (r : Receiver) (call : Http.Call) (s : Server) (d : Disk) :
    Http.Response × Server × Disk :=
  match r.answer call d with
  | (a, none, d) => (a, s, d)
  | (a, some (tag, e), d) =>
    (a, { s with manager := (s.manager.addBottle tag e).toOption.getD s.manager }, d)

def answer (call : Http.Call) (s : Server) (d : Disk) : Http.Response × Server × Disk :=
  if isHeartbeat call then (.text 200 "text/plain" ".", s, d)
  else
    match Http.below? graphMount call.path, Http.below? receiverMount call.path, s.receiver with
    | some path, _, _ =>
      let (a, manager, d) := s.manager.answer s.checkout s.net { call with path } d
      (a, { s with manager }, d)
    | none, some path, some r => receiverAnswer r { call with path } s d
    | _, _, _ => (rootAnswer call, s, d)

end Server

end Taproom
