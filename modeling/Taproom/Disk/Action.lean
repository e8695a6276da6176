import Taproom.Disk.Basic
import Taproom.Fault

/-!
Actions on a disk. An action may fail on the way; what it did before stays done.
-/

namespace Taproom

def Disk.read (d : Disk) (p : String) : Except Fault ByteArray :=
  match d.find true p with
  | .error reason => .error (.disk ⟨"open", p, reason⟩)
  | .ok (_, .dir _) => .error (.disk ⟨"read", p, .isDirectory⟩)
  | .ok (_, e) =>
    match d.bodyOf? e with
    | some b => .ok b.content
    | none => .error (.disk ⟨"open", p, .missing⟩)

def Disk.readText (d : Disk) (p : String) (fault : Fault) : Except Fault String := do
  match String.fromUTF8? (← d.read p) with
  | some s => return s
  | none => throw fault

/-- An action changes the disk and gives a value or a fault. -/
abbrev Act (α : Type) := ExceptT Fault (StateM Disk) α

namespace Act

variable {α : Type}

def run (a : Act α) (d : Disk) : Except Fault α × Disk := (ExceptT.run a).run d

def during (context : String) (a : Act α) : Act α :=
  ExceptT.adapt (Fault.during context) a

def attempt (a : Act α) : Act (Except Fault α) :=
  ExceptT.lift (ExceptT.run a)

/-- Runs `a`, then `cleanup` whether `a` failed or not; the outcome is that of `a`. -/
def andAlways (a : Act α) (cleanup : Act Unit) : Act α := do
  let r ← attempt a
  let _ ← attempt cleanup
  MonadExcept.ofExcept r

def change (action subject : String) (f : Disk → Except Disk.Reason Disk) : Act Unit := do
  match f (← get) with
  | .ok d => set d
  | .error reason => throw (.disk ⟨action, subject, reason⟩)

def look (action subject : String) (f : Disk → Except Disk.Reason α) : Act α := do
  match f (← get) with
  | .ok v => return v
  | .error reason => throw (.disk ⟨action, subject, reason⟩)

def contentOf (p : String) : Act ByteArray := do
  MonadExcept.ofExcept ((← get).read p)

def putFile (p : String) (content : ByteArray) (mode : Nat) : Act Unit :=
  change "open" p fun d => d.write p content mode

def stat (p : String) : Act Disk.Entry := do
  let (_, e) ← look "stat" p fun d => d.find true p
  return e

def exists? (p : String) : Act Bool := return (← get).exists? p

def makeDir (p : String) (mode : Nat) : Act Unit := change "mkdir" p fun d => d.makeDir p mode

def parentPart (p : String) : String :=
  String.ofList (((p.toList.reverse.dropWhile (· = '/')).dropWhile (· ≠ '/')).drop 1).reverse

def makeDirs (fuel : Nat) (p : String) (mode : Nat) : Act Unit :=
  match fuel with
  | 0 => throw (.disk ⟨"mkdir", p, .nameTooLong⟩)
  | fuel + 1 => do
    match (← get).find true p with
    | .ok (_, .dir _) => return
    | .ok _ => throw (.disk ⟨"mkdir", p, .notDirectory⟩)
    | .error _ =>
      let parent := parentPart p
      if parent ≠ "" then makeDirs fuel parent mode
      match ← attempt (makeDir p mode) with
      | .ok () => return
      | .error f =>
        match (← get).find false p with
        | .ok (_, .dir _) => return
        | _ => throw f

def makeDirAll (p : String) (mode : Nat) : Act Unit := makeDirs (p.length + 2) p mode

def listDir (p : String) : Act (List (String × Disk.Entry)) := do
  let (place, e) ← look "open" p fun d => d.find true p
  match e with
  | .dir _ => return (← get).children place
  | _ => throw (.disk ⟨"open", p, .notDirectory⟩)

def symlink (target p : String) : Act Unit :=
  change "symlink" (target ++ " " ++ p) fun d => d.makeLink target p

def hardLink (old new : String) : Act Unit :=
  change "link" (old ++ " " ++ new) fun d => d.share old new

def rename (old new : String) : Act Unit :=
  change "rename" (old ++ " " ++ new) fun d => d.move old new

def remove (p : String) : Act Unit := change "remove" p fun d => d.unlink p

def removeAll (p : String) : Act Unit := do
  match (← get).find false p with
  | .ok (place, .dir _) => modify fun d => d.prune place
  | .ok (place, _) => modify fun d => { d with tree := d.tree.erase place }
  | .error .notDirectory => throw (.disk ⟨"unlinkat", p, .notDirectory⟩)
  | .error _ => return

def chmod (p : String) (mode : Nat) : Act Unit := change "chmod" p fun d => d.setMode p mode

def putDigits : Nat → Nat → List Char → List Char
  | 0, _, after => after
  | fuel + 1, n, after =>
    if n < 10 then n.digitChar :: after else putDigits fuel (n / 10) ((n % 10).digitChar :: after)

/-- A number as it is usually written, which takes no more steps than it has bits. -/
def decimal (n : Nat) : String := String.ofList (putDigits (n.log2 + 1) n [])

/-- A name that was not handed out before: `before`, digits, `after`. -/
def freshName (before after : String) : Act String := do
  let n := (← get).serial
  modify fun d => { d with serial := n + 1 }
  return before ++ decimal (1000000000 + n) ++ after

def inside (parent name : String) : String :=
  if endsWith parent "/" then parent ++ name else parent ++ "/" ++ name

def makeTempDir (parent before : String) : Act String := do
  if before.toList.contains '/' then throw (.told s!"mkdirtemp {before}: pattern contains path separator")
  let p := inside parent (← freshName before "")
  match ← attempt (makeDir p 0o700) with
  | .ok () => return p
  | .error f =>
    let _ ← stat parent
    throw f

/-- The first number from `n` on that is not taken, if it is among the next ones. -/
def firstFree (taken : Nat → Bool) : Nat → Nat → Nat
  | 0, n => n
  | more + 1, n => if taken n then firstFree taken more (n + 1) else n

def tempPath (parent before after : String) (n : Nat) : String :=
  inside parent (before ++ decimal (1000000000 + n) ++ after)

/-- The number of the next temporary file: one that was not handed out before and whose path names
nothing. -/
def tempNumber (parent before after : String) (d : Disk) : Nat :=
  firstFree (fun n => (d.find false (tempPath parent before after n)).isOk) d.tree.size d.serial

def makeTempFile (parent before after : String) : Act String := do
  let n := tempNumber parent before after (← get)
  modify fun d => { d with serial := n + 1 }
  let p := tempPath parent before after n
  putFile p .empty 0o600
  return p

end Act

end Taproom
