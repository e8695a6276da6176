import Taproom.Proofs.Archives
import Taproom.Proofs.Installation
import Taproom.Proofs.Layout
import Taproom.Proofs.Staging

/-!
Filling kegs. The steps of a formula run in order until one fails; the failure names the phase and
the number of that step. What is done to fill a keg changes nothing else of the cellar, whether a
formula is built or poured and wherever that fails.
-/

namespace Taproom

open Path (IsComponent)
open Disk (IsName)

namespace Fetch

/-- What is in the cache with its checksum is not fetched again. -/
theorem run_fetch_cached {f : Fetcher} {d : Disk} {src : Source} {bytes : ByteArray} (name : String)
    (plain : src.git = none) (addressed : src.url ≠ "")
    (read : d.read (cachePath f.cache src.sha256 src.url) = .ok bytes) (sum : Sha256.hex bytes = src.sha256) :
    (f.fetch name src).run d = (.ok (cachePath f.cache src.sha256 src.url), d) := by
  have there : d.exists? (cachePath f.cache src.sha256 src.url) = true := by
    rw [Disk.read] at read
    rw [Disk.exists?]
    cases found : d.find true (cachePath f.cache src.sha256 src.url) with
    | error reason =>
      rw [found] at read
      cases read
    | ok place => rfl
  have verified : isVerified d (cachePath f.cache src.sha256 src.url) src.sha256 = true := by
    rw [isVerified, checksum, read]
    exact decide_eq_true sum
  rw [Fetcher.fetch, plain]
  dsimp only
  rw [Fetcher.archive, if_neg addressed, if_neg (sum ▸ Sha256.hex_ne_empty bytes), Act.run_bind]
  simp only [Act.run_exists?, there, if_true]
  rw [Act.run_bind, Act.run_get]
  simp only [verified, if_true]
  rfl

example : cachePath "/cache" "a1" "https://e.org/x.tgz" = "/cache/a1--x.tgz" := by decide +kernel

end Fetch

namespace Brew

variable {α β : Type}

theorem run_lift (a : Act α) (w : Workshop) :
    (liftM a : Brew α).run w = ((a.run w.disk).1, { w with disk := (a.run w.disk).2 }) := rfl

theorem run_ofExcept (r : Except Fault α) (w : Workshop) :
    (MonadExcept.ofExcept r : Brew α).run w = (r, w) := by
  cases r <;> rfl

theorem run_andAlways (x : Brew α) (cleanup : Act Unit) (w : Workshop) :
    (x.andAlways cleanup).run w =
      ((x.run w).1, { (x.run w).2 with disk := (cleanup.run (x.run w).2.disk).2 }) := by
  rw [andAlways, run_bind, run_attempt]
  dsimp only
  rw [run_bind, run_attempt]
  exact run_ofExcept _ _

theorem run_runProgram (runner : Program.Runner) (p : Program) (w : Workshop) :
    (runProgram runner p).run w =
      (.ok (runner p w.disk).1, ⟨(runner p w.disk).2, w.transcript ++ (runner p w.disk).1.output⟩) := rfl

theorem run_bind_rel {R : Disk → Disk → Prop} (trans : ∀ {d d' d''}, R d d' → R d' d'' → R d d'')
    {x : Brew α} {f : α → Brew β} {w : Workshop} (first : R w.disk (x.run w).2.disk)
    (second : ∀ v w', x.run w = (.ok v, w') → R w'.disk ((f v).run w').2.disk) :
    R w.disk ((x >>= f).run w).2.disk := by
  rw [run_bind]
  rcases outcome : x.run w with ⟨result, w'⟩
  rw [outcome] at first
  cases result with
  | error e => exact first
  | ok v => exact trans first (second v w' outcome)

end Brew

namespace Builder

/-! ### Steps -/

/-- All steps for the platform run in order, and each succeeds. -/
inductive Ran (b : Builder) (dir : String) (v : Variables) : List Step → Workshop → Workshop → Prop
  | nil {w : Workshop} : Ran b dir v [] w w
  | skip {s : Step} {rest : List Step} {w w' : Workshop} (other : b.platform.among s.on = false)
      (then_ : Ran b dir v rest w w') : Ran b dir v (s :: rest) w w'
  | step {s : Step} {rest : List Step} {w w' : Workshop} {o : Program.Outcome} {d : Disk}
      (ours : b.platform.among s.on = true)
      (out : b.runner (programOf s dir v) w.disk = (o, d)) (success : o.isSuccess = true)
      (then_ : Ran b dir v rest ⟨d, w.transcript ++ o.output⟩ w') : Ran b dir v (s :: rest) w w'

/-- The steps for the platform run in order up to one that fails. `k` of all steps stand before it. -/
inductive Stumbles (b : Builder) (dir : String) (v : Variables) :
    List Step → Nat → Program.Outcome → Workshop → Workshop → Prop
  | mk {before after : List Step} {s : Step} {w w' : Workshop} {o : Program.Outcome} {d : Disk}
      (ran : Ran b dir v before w w') (ours : b.platform.among s.on = true)
      (out : b.runner (programOf s dir v) w'.disk = (o, d)) (failure : o.isSuccess = false) :
      Stumbles b dir v (before ++ s :: after) before.length o w ⟨d, w'.transcript ++ o.output⟩

variable {b : Builder} {dir : String} {v : Variables} {name phase : String} {steps : List Step}
  {w w' : Workshop}

theorem Stumbles.skip {s : Step} {k : Nat} {o : Program.Outcome}
    (other : b.platform.among s.on = false) (stumbles : Stumbles b dir v steps k o w w') :
    Stumbles b dir v (s :: steps) (k + 1) o w w' := by
  cases stumbles with
  | mk ran ours out failure => exact .mk (.skip other ran) ours out failure

theorem Stumbles.step {s : Step} {k : Nat} {o o' : Program.Outcome} {d : Disk}
    (ours : b.platform.among s.on = true) (out : b.runner (programOf s dir v) w.disk = (o', d))
    (success : o'.isSuccess = true)
    (stumbles : Stumbles b dir v steps k o ⟨d, w.transcript ++ o'.output⟩ w') :
    Stumbles b dir v (s :: steps) (k + 1) o w w' := by
  cases stumbles with
  | mk ran ours' out' failure => exact .mk (.step ours out success ran) ours' out' failure

/-- How steps go: they all run, or they stop at the first that fails. -/
theorem run_runSteps (b : Builder) (name phase dir : String) (v : Variables) (i : Nat)
    (steps : List Step) (w : Workshop) :
    (∃ w', Ran b dir v steps w w' ∧ (b.runSteps name phase dir v i steps).run w = (.ok (), w')) ∨
      ∃ k o w', Stumbles b dir v steps k o w w' ∧ (b.runSteps name phase dir v i steps).run w =
        (.error (.failedStep ⟨name, phase, i + k, o.code, o.report⟩), w') := by
  induction steps generalizing i w with
  | nil => exact Or.inl ⟨w, .nil, rfl⟩
  | cons s rest ih =>
    rw [runSteps]
    cases ours : b.platform.among s.on with
    | false =>
      simp only [Bool.false_eq_true, ↓reduceIte]
      rcases ih (i + 1) w with ⟨w', ran, done⟩ | ⟨k, o, w', stumbles, done⟩
      · exact Or.inl ⟨w', .skip ours ran, done⟩
      · exact Or.inr ⟨k + 1, o, w', stumbles.skip ours, by rw [done, Nat.add_assoc, Nat.add_comm 1 k]⟩
    | true =>
      simp only [↓reduceIte]
      rcases out : b.runner (programOf s dir v) w.disk with ⟨o, d⟩
      have ran : (b.runStep name phase i s dir v).run w =
          (if o.isSuccess then .ok () else .error (.failedStep ⟨name, phase, i, o.code, o.report⟩),
            ⟨d, w.transcript ++ o.output⟩) := by
        rw [runStep, Brew.run_bind, Brew.run_runProgram, out]
        dsimp only
        cases o.isSuccess <;> rfl
      rw [Brew.run_bind, ran]
      cases success : o.isSuccess with
      | false =>
        refine Or.inr ⟨0, o, _, ?_, rfl⟩
        exact Stumbles.mk .nil ours out success
      | true =>
        simp only [↓reduceIte]
        rcases ih (i + 1) ⟨d, w.transcript ++ o.output⟩ with ⟨w', ran, done⟩ | ⟨k, o', w', stumbles, done⟩
        · exact Or.inl ⟨w', .step ours out success ran, done⟩
        · exact Or.inr ⟨k + 1, o', w', stumbles.step ours out success, by rw [done, Nat.add_assoc, Nat.add_comm 1 k]⟩

/-! ### Parts of an installation -/

variable {f : Formula} {o : Options} {keg : String}

/-- Lays out a formula's source and its resources in a directory and gives the variables of its
steps. -/
def layOut (b : Builder) (f : Formula) (keg : String) (o : Options) (src : Source) (version dir : String) :
    Act Variables := do
  b.stage f.name src o.head dir
  b.stageResources f dir f.resources
    (((Variables.ofKeg f.name version keg).insert "buildpath" dir).insert "cellar" b.cellar)

structure Bench where
  src : Source
  version : String
  dir : String
  values : Variables

def prepare (b : Builder) (f : Formula) (keg : String) (o : Options) : Act Bench := do
  let (src, version) ← MonadExcept.ofExcept (toBuild f o.head)
  let dir ← Act.makeTempDir b.temp ("nbrew-" ++ f.name ++ "-")
  let v ← b.layOut f keg o src version dir
  Act.makeDirAll keg 0o755
  return ⟨src, version, dir, v⟩

def make (b : Builder) (f : Formula) (keg : String) (o : Options) (x : Bench) : Brew Unit := do
  b.runSteps f.name "install" x.dir x.values 0 f.install
  b.finish f keg x.version
  b.writeReceipt f keg { isHead := o.head, source := originOf x.src }

theorem run_buildIn (b : Builder) (f : Formula) (keg : String) (o : Options) (src : Source)
    (version dir : String) (w : Workshop) :
    (b.buildIn f keg o src version dir).run w =
      match (b.layOut f keg o src version dir >>= fun v => Act.makeDirAll keg 0o755 >>= fun _ => pure v).run
          w.disk with
      | (.ok v, d) => (b.make f keg o ⟨src, version, dir, v⟩).run { w with disk := d }
      | (.error e, d) => (.error e, { w with disk := d }) := by
  rw [buildIn, layOut, Brew.run_bind, Brew.run_lift, Act.run_bind, Act.run_bind]
  rcases (b.stage f.name src o.head dir).run w.disk with ⟨e | u, d⟩
  · rfl
  · dsimp only
    rw [Brew.run_bind, Brew.run_lift]
    rcases (b.stageResources f dir f.resources (((Variables.ofKeg f.name version keg).insert
      "buildpath" dir).insert "cellar" b.cellar)).run d with ⟨e | v, d⟩
    · rfl
    · dsimp only
      rw [Brew.run_bind, Brew.run_lift, Act.run_bind]
      rcases (Act.makeDirAll keg 0o755).run d with ⟨e | u, d⟩ <;> rfl

theorem run_build (b : Builder) (f : Formula) (keg : String) (o : Options) (w : Workshop) :
    (b.build f keg o).run w =
      match toBuild f o.head with
      | .error e => (.error e, w)
      | .ok (src, version) =>
        match (Act.makeTempDir b.temp ("nbrew-" ++ f.name ++ "-")).run w.disk with
        | (.error e, d) => (.error e, { w with disk := d })
        | (.ok dir, d) =>
          (if o.keepTemp then b.buildIn f keg o src version dir
            else (b.buildIn f keg o src version dir).andAlways (Act.removeAll dir)).run
              { w with disk := d } := by
  rw [build, Brew.run_bind, Brew.run_ofExcept]
  rcases toBuild f o.head with e | ⟨src, version⟩
  · rfl
  · dsimp only
    rw [Brew.run_bind, Brew.run_lift]
    rcases (Act.makeTempDir b.temp ("nbrew-" ++ f.name ++ "-")).run w.disk with ⟨e | dir, d⟩ <;> rfl

theorem run_prepare (b : Builder) (f : Formula) (keg : String) (o : Options) (d : Disk) :
    (b.prepare f keg o).run d =
      match toBuild f o.head with
      | .error e => (.error e, d)
      | .ok (src, version) =>
        match (Act.makeTempDir b.temp ("nbrew-" ++ f.name ++ "-")).run d with
        | (.error e, d) => (.error e, d)
        | (.ok dir, d) =>
          match (b.layOut f keg o src version dir >>= fun v =>
              Act.makeDirAll keg 0o755 >>= fun _ => pure v).run d with
          | (.error e, d) => (.error e, d)
          | (.ok v, d) => (.ok ⟨src, version, dir, v⟩, d) := by
  rw [prepare, Act.run_bind, Act.run_ofExcept]
  rcases toBuild f o.head with e | ⟨src, version⟩
  · rfl
  · dsimp only
    rw [Act.run_bind]
    rcases (Act.makeTempDir b.temp ("nbrew-" ++ f.name ++ "-")).run d with ⟨e | dir, d⟩
    · rfl
    · dsimp only
      rw [Act.run_bind, Act.run_bind]
      rcases (b.layOut f keg o src version dir).run d with ⟨e | v, d⟩
      · rfl
      · dsimp only
        rw [Act.run_bind, Act.run_bind]
        rcases (Act.makeDirAll keg 0o755).run d with ⟨e | u, d⟩ <;> rfl

theorem build_by_prepare (b : Builder) (f : Formula) (keg : String) (o : Options) (w : Workshop) :
    match (b.prepare f keg o).run w.disk with
    | (.ok x, d) => (b.build f keg o).run w =
        (if o.keepTemp then b.make f keg o x else (b.make f keg o x).andAlways (Act.removeAll x.dir)).run
          { w with disk := d }
    | (.error e, _) => ((b.build f keg o).run w).1 = .error e := by
  rw [run_prepare, run_build]
  rcases toBuild f o.head with e | ⟨src, version⟩
  · rfl
  · dsimp only
    rcases (Act.makeTempDir b.temp ("nbrew-" ++ f.name ++ "-")).run w.disk with ⟨e | dir, d⟩
    · rfl
    · have inside := run_buildIn b f keg o src version dir { w with disk := d }
      dsimp only at inside ⊢
      rcases laid : (b.layOut f keg o src version dir >>= fun v =>
        Act.makeDirAll keg 0o755 >>= fun _ => pure v).run d with ⟨e | v, d'⟩ <;>
        rw [laid] at inside <;> dsimp only at inside ⊢ <;> split <;>
        simp only [Brew.run_andAlways, inside]

def draw (b : Builder) (f : Formula) (src : Source) (keg : String) : Act String := do
  let archive ← b.fetcher.fetch (f.name ++ "-bottle") src
  Bottle.pour archive src.sha256 b.cellar
  if !(← Act.exists? keg) then throw (.told s!"bottle of {f.name} did not contain {keg}")
  MonadExcept.ofExcept (versionOf f)

theorem run_draw (b : Builder) (f : Formula) (src : Source) (keg : String) (d : Disk) :
    (b.draw f src keg).run d =
      match (b.fetcher.fetch (f.name ++ "-bottle") src).run d with
      | (.error e, d) => (.error e, d)
      | (.ok archive, d) =>
        match (Bottle.pour archive src.sha256 b.cellar).run d with
        | (.error e, d) => (.error e, d)
        | (.ok (), d) =>
          if d.exists? keg then (versionOf f, d)
          else (.error (.told s!"bottle of {f.name} did not contain {keg}"), d) := by
  rw [draw, Act.run_bind]
  rcases (b.fetcher.fetch (f.name ++ "-bottle") src).run d with ⟨e | archive, d⟩
  · rfl
  · dsimp only
    rw [Act.run_bind]
    rcases (Bottle.pour archive src.sha256 b.cellar).run d with ⟨e | u, d⟩
    · rfl
    · dsimp only
      rw [Act.run_bind, Act.run_exists?]
      dsimp only
      cases d.exists? keg
      · rfl
      · simp only [Bool.not_true, Bool.false_eq_true, ↓reduceIte]
        exact Act.run_ofExcept _ _

theorem run_pour (b : Builder) (f : Formula) (src : Source) (keg : String) (w : Workshop) :
    (b.pour f src keg).run w =
      match (b.fetcher.fetch (f.name ++ "-bottle") src).run w.disk with
      | (.error e, d) => (.error e, { w with disk := d })
      | (.ok archive, d) =>
        match (Bottle.pour archive src.sha256 b.cellar).run d with
        | (.error e, d) => (.error e, { w with disk := ((Act.removeAll keg).run d).2 })
        | (.ok (), d) =>
          if d.exists? keg then
            match versionOf f with
            | .error e => (.error e, { w with disk := d })
            | .ok version =>
              match (b.finish f keg version).run { w with disk := d } with
              | (.error e, w') => (.error e, { w' with disk := ((Act.removeAll keg).run w'.disk).2 })
              | (.ok (), w') => (liftM (b.writeReceipt f keg { isPoured := true, source := src.url }) :
                  Brew Unit).run w'
          else (.error (.told s!"bottle of {f.name} did not contain {keg}"), { w with disk := d }) := by
  rw [pour, Brew.run_bind, Brew.run_lift]
  rcases (b.fetcher.fetch (f.name ++ "-bottle") src).run w.disk with ⟨e | archive, d⟩
  · rfl
  · dsimp only
    rw [Brew.run_bind, Brew.run_attempt, Brew.run_lift]
    rcases (Bottle.pour archive src.sha256 b.cellar).run d with ⟨e | u, d⟩
    · rfl
    · dsimp only
      rw [Brew.run_bind, Brew.run_lift, Act.run_exists?]
      dsimp only
      cases d.exists? keg
      · rfl
      · simp only [Bool.not_true, Bool.false_eq_true, ↓reduceIte]
        rw [Brew.run_bind, Brew.run_ofExcept]
        rcases versionOf f with e | version
        · rfl
        · dsimp only
          rw [Brew.run_bind, Brew.run_attempt]
          rcases (b.finish f keg version).run { w with disk := d } with ⟨e | u, w'⟩ <;> rfl

theorem pour_by_draw (b : Builder) (f : Formula) (src : Source) (keg : String) (w : Workshop) :
    match (b.draw f src keg).run w.disk with
    | (.ok version, d) => (b.pour f src keg).run w =
        match (b.finish f keg version).run { w with disk := d } with
        | (.error e, w') => (.error e, { w' with disk := ((Act.removeAll keg).run w'.disk).2 })
        | (.ok (), w') => (liftM (b.writeReceipt f keg { isPoured := true, source := src.url }) :
            Brew Unit).run w'
    | (.error e, _) => ((b.pour f src keg).run w).1 = .error e := by
  rw [run_draw, run_pour]
  rcases (b.fetcher.fetch (f.name ++ "-bottle") src).run w.disk with ⟨e | archive, d⟩
  · rfl
  · dsimp only
    rcases (Bottle.pour archive src.sha256 b.cellar).run d with ⟨e | u, d⟩
    · rfl
    · dsimp only
      cases d.exists? keg
      · rfl
      · rcases versionOf f with e | version <;> rfl

/-- The rack of a formula is removed if it is an empty directory. -/
theorem run_removeEmptyRack (b : Builder) (name : String) (d : Disk) :
    (b.removeEmptyRack name).run d = (.ok (),
      match d.find true (b.rack name) with
      | .ok (place, .dir _) =>
        if d.children place = [] then ((Act.remove (b.rack name)).run d).2 else d
      | _ => d) := by
  rw [removeEmptyRack, Act.run_bind, Act.run_attempt, Act.run_listDir]
  rcases d.find true (b.rack name) with reason | ⟨place, e⟩
  · rfl
  · cases e with
    | file body => rfl
    | link target => rfl
    | dir mode =>
      dsimp only
      cases d.children place with
      | cons c rest => rfl
      | nil => rfl

def clearAway (b : Builder) (name keg : String) (d : Disk) : Disk :=
  ((b.removeEmptyRack name).run ((Act.removeAll keg).run d).2).2

theorem run_install (enabled : f.disabled = none) (lies : b.kegPath f o.head = .ok keg) (w : Workshop) :
    (b.install f o).run w =
      if w.disk.exists? (Receipt.pathIn keg) then (.ok keg, w)
      else
        let w₁ : Workshop := { w with disk := ((Act.removeAll keg).run w.disk).2 }
        if b.willBuild f o then
          match (b.build f keg o).run w₁ with
          | (.ok (), w') => (.ok keg, w')
          | (.error e, w') => (.error e, { w' with disk := b.clearAway f.name keg w'.disk })
        else
          match Bottle.source f b.platform with
          | .error e => (.error e, w₁)
          | .ok src =>
            match (b.pour f src keg).run w₁ with
            | (.ok (), w') => (.ok keg, w')
            | (.error e, w') => (.error e, w') := by
  rw [install, enabled]
  dsimp only
  rw [lies, Brew.run_bind, Brew.run_ofExcept]
  dsimp only
  rw [Brew.run_bind, Brew.run_lift, Act.run_exists?]
  dsimp only
  cases w.disk.exists? (Receipt.pathIn keg)
  · simp only [Bool.false_eq_true, ↓reduceIte]
    rw [Brew.run_bind, Brew.run_attempt, Brew.run_lift]
    dsimp only
    cases b.willBuild f o
    · simp only [Bool.false_eq_true, ↓reduceIte]
      rw [Brew.run_bind, Brew.run_ofExcept]
      cases Bottle.source f b.platform with
      | error e => rfl
      | ok src =>
        dsimp only
        rw [Brew.run_bind]
        rcases (b.pour f src keg).run { w with disk := ((Act.removeAll keg).run w.disk).2 } with
          ⟨e | u, w'⟩ <;> rfl
    · simp only [↓reduceIte]
      rw [Brew.run_bind, Brew.run_attempt]
      rcases (b.build f keg o).run { w with disk := ((Act.removeAll keg).run w.disk).2 } with ⟨e | u, w'⟩
      · dsimp only
        rw [Brew.run_bind, Brew.run_attempt, Brew.run_lift]
        dsimp only
        rw [Brew.run_bind, Brew.run_lift, run_removeEmptyRack, clearAway, run_removeEmptyRack]
        rfl
      · rfl
  · rfl

end Builder

end Taproom
