import Taproom.Proofs.Cleanup

/-!
The steps of an installation. They run in phases, after what is built or poured was laid out. An
installation succeeds only if all of them do, and one that stumbles tells at which step of which
phase.
-/

namespace Taproom.Builder

variable {y : Layout} {b : Builder} {f : Formula} {o : Options} {version dir keg : String}
  {v : Variables} {steps : List Step} {w w' w'' : Workshop} {d : Disk}

/-! ### Phases -/

theorem Ran.run (ran : Ran b dir v steps w w') (name phase : String) (i : Nat) :
    (b.runSteps name phase dir v i steps).run w = (.ok (), w') := by
  induction ran generalizing i with
  | nil => rfl
  | skip other _ ih =>
    rw [runSteps, other]
    exact ih (i + 1)
  | step ours out success _ ih =>
    rw [runSteps, if_pos ours, Brew.run_bind, runStep, Brew.run_bind, Brew.run_runProgram, out]
    dsimp only
    rw [success]
    exact ih (i + 1)

theorem Stumbles.run {k : Nat} {out : Program.Outcome} (stumbles : Stumbles b dir v steps k out w w')
    (name phase : String) (i : Nat) :
    (b.runSteps name phase dir v i steps).run w =
      (.error (.failedStep ⟨name, phase, i + k, out.code, out.report⟩), w') := by
  obtain ⟨ran, ours, out, failure⟩ := stumbles
  induction ran generalizing i with
  | nil =>
    rw [List.nil_append, runSteps, if_pos ours, Brew.run_bind, runStep, Brew.run_bind,
      Brew.run_runProgram, out]
    dsimp only
    rw [failure]
    rfl
  | skip other _ ih =>
    have next := ih (i + 1) out
    rw [Nat.add_right_comm] at next
    rw [List.cons_append, runSteps, other]
    exact next
  | step ours' out' success _ ih =>
    rw [List.cons_append, runSteps, if_pos ours', Brew.run_bind, runStep, Brew.run_bind,
      Brew.run_runProgram, out']
    dsimp only
    rw [success]
    have next := ih (i + 1) out
    rw [Nat.add_right_comm] at next
    exact next

/-- Some steps, what they are called, and where and with which variables they run. -/
structure Phase where
  name : String
  dir : String
  values : Variables
  steps : List Step

def runPhases (b : Builder) (name : String) : List Phase → Brew Unit
  | [] => return
  | p :: rest => do
    b.runSteps name p.name p.dir p.values 0 p.steps
    runPhases b name rest

/-- All steps of some phases run in order, and each succeeds. -/
inductive RanAll (b : Builder) : List Phase → Workshop → Workshop → Prop
  | nil {w : Workshop} : RanAll b [] w w
  | cons {p : Phase} {rest : List Phase} {w w' w'' : Workshop} (first : Ran b p.dir p.values p.steps w w')
      (others : RanAll b rest w' w'') : RanAll b (p :: rest) w w''

theorem ranAll_of_run {name : String} {phases : List Phase}
    (ran : (b.runPhases name phases).run w = (.ok (), w')) : RanAll b phases w w' := by
  induction phases generalizing w with
  | nil =>
    obtain ⟨-, rfl⟩ := Prod.mk.inj ran
    exact .nil
  | cons p rest ih =>
    rw [runPhases, Brew.run_bind] at ran
    rcases run_runSteps b name p.name p.dir p.values 0 p.steps w with
      ⟨w₁, first, done⟩ | ⟨k, out, w₁, -, done⟩
    · rw [done] at ran
      exact .cons first (ih ran)
    · rw [done] at ran
      cases ran

theorem RanAll.run_stumbles {before after : List Phase} {p : Phase} {k : Nat} {out : Program.Outcome}
    (ran : RanAll b before w w') (stumbles : Stumbles b p.dir p.values p.steps k out w' w'') (name : String) :
    (b.runPhases name (before ++ p :: after)).run w =
      (.error (.failedStep ⟨name, p.name, k, out.code, out.report⟩), w'') := by
  induction ran with
  | nil =>
    rw [List.nil_append, runPhases, Brew.run_bind, stumbles.run, Nat.zero_add]
  | cons first _ ih =>
    rw [List.cons_append, runPhases, Brew.run_bind, first.run]
    exact ih stumbles

/-! ### What comes before and after the steps -/

def serve (b : Builder) (f : Formula) (keg : String) : Act Unit :=
  match Service.render? f keg b.platform with
  | some text => Act.putFile (Path.join [keg, Service.fileName f b.platform]) text.toUTF8 0o644
  | none => return

def lastPhase (f : Formula) (keg number : String) : Phase :=
  ⟨"post_install", keg, Variables.ofKeg f.name number keg, f.postInstall⟩

theorem run_finish (b : Builder) (f : Formula) (keg number : String) (w : Workshop) :
    (b.finish f keg number).run w =
      match (b.runPhases f.name [lastPhase f keg number]).run w with
      | (.error e, w') => (.error e, w')
      | (.ok (), w') => (liftM (b.serve f keg) : Brew Unit).run w' := by
  have last : (b.runPhases f.name [lastPhase f keg number]).run w =
      (b.runSteps f.name "post_install" keg (Variables.ofKeg f.name number keg) 0 f.postInstall).run w := by
    rw [runPhases, Brew.run_bind]
    rcases ran : (b.runSteps f.name "post_install" keg (Variables.ofKeg f.name number keg) 0 f.postInstall).run w
      with ⟨e | u, w'⟩
    · rw [lastPhase, ran]
    · rw [lastPhase, ran]
      rfl
  rw [finish, Brew.run_bind, last, serve]
  rcases (b.runSteps f.name "post_install" keg (Variables.ofKeg f.name number keg) 0 f.postInstall).run w with
    ⟨e | u, w'⟩
  · rfl
  · cases Service.render? f keg b.platform <;> rfl

def phasesOf (f : Formula) (keg : String) (x : Bench) : List Phase :=
  [⟨"install", x.dir, x.values, f.install⟩, lastPhase f keg x.version]

theorem run_make (b : Builder) (f : Formula) (keg : String) (o : Options) (x : Bench) (w : Workshop) :
    (b.make f keg o x).run w =
      match (b.runPhases f.name (phasesOf f keg x)).run w with
      | (.error e, w') => (.error e, w')
      | (.ok (), w') => (liftM (b.serve f keg >>= fun _ =>
        b.writeReceipt f keg { isHead := o.head, source := originOf x.src }) : Brew Unit).run w' := by
  rw [make, phasesOf, runPhases, Brew.run_bind, Brew.run_bind]
  dsimp only
  rcases (b.runSteps f.name "install" x.dir x.values 0 f.install).run w with ⟨e | u, w₁⟩
  · rfl
  · dsimp only
    rw [Brew.run_bind, run_finish]
    rcases (b.runPhases f.name [lastPhase f keg x.version]).run w₁ with ⟨e | u, w₂⟩
    · rfl
    · dsimp only
      rw [Brew.run_lift, Brew.run_lift, Act.run_bind]
      rcases (b.serve f keg).run w₂.disk with ⟨e | u, d⟩ <;> rfl

/-- The phases that an installation comes to, and the workshop in which they begin. -/
inductive Begun (b : Builder) (f : Formula) (o : Options) (keg : String) (w : Workshop) :
    List Phase → Workshop → Prop
  | built {x : Bench} {d : Disk} (builds : b.willBuild f o = true)
      (prepared : (b.prepare f keg o).run w.disk = (.ok x, d)) :
      Begun b f o keg w (phasesOf f keg x) { w with disk := d }
  | poured {src : Source} {number : String} {d : Disk} (pours : b.willBuild f o = false)
      (found : Bottle.source f b.platform = .ok src)
      (drawn : (b.draw f src keg).run w.disk = (.ok number, d)) :
      Begun b f o keg w [lastPhase f keg number] { w with disk := d }

section Install

variable (wanted : Wanted y b f o version)
  (incomplete : w.disk.exists? (Receipt.pathIn (y.path [f.name, version])) = false)
include wanted incomplete

theorem install_by_phases {phases : List Phase}
    (begun : Begun b f o (y.path [f.name, version]) (cleared y f version w) phases w') :
    match (b.runPhases f.name phases).run w' with
    | (.error e, _) => ((b.install f o).run w).1 = .error e
    | (.ok (), w'') => ((b.install f o).run w).2.transcript = w''.transcript := by
  cases begun with
  | @built x d builds prepared =>
    have built := build_by_prepare b f (y.path [f.name, version]) o (cleared y f version w)
    rw [prepared] at built
    dsimp only at built
    have making := run_make b f (y.path [f.name, version]) o x { cleared y f version w with disk := d }
    rw [install_of_builds wanted incomplete builds, built]
    rcases done : (b.runPhases f.name (phasesOf f (y.path [f.name, version]) x)).run
      { cleared y f version w with disk := d } with ⟨e | u, w₁⟩ <;> rw [done] at making
    · dsimp only at making ⊢
      cases o.keepTemp
      · rw [if_neg (by decide), Brew.run_andAlways, making]
      · rw [if_pos rfl, making]
    · dsimp only at making ⊢
      rw [Brew.run_lift] at making
      cases o.keepTemp
      · rw [if_neg (by decide), Brew.run_andAlways, making]
        dsimp only
        split <;> rename_i ran <;> obtain ⟨-, rfl⟩ := Prod.mk.inj ran <;> rfl
      · rw [if_pos rfl, making]
        split <;> rename_i ran <;> obtain ⟨-, rfl⟩ := Prod.mk.inj ran <;> rfl
  | @poured src number d pours found drawn =>
    obtain ⟨src', -, found', -, ran⟩ := install_of_pours wanted incomplete pours
    obtain rfl : src' = src := Except.ok.inj (found'.symm.trans found)
    have poured := pour_by_draw b f src' (y.path [f.name, version]) (cleared y f version w)
    rw [drawn] at poured
    dsimp only at poured
    rw [run_finish] at poured
    rw [ran, poured]
    rcases (b.runPhases f.name [lastPhase f (y.path [f.name, version]) number]).run
      { cleared y f version w with disk := d } with ⟨e | u, w₁⟩
    · rfl
    · dsimp only
      rw [Brew.run_lift]
      rcases (b.serve f (y.path [f.name, version])).run w₁.disk with ⟨e | u, d₁⟩
      · rfl
      · dsimp only
        rw [Brew.run_lift]
        split <;> rename_i ran <;> obtain ⟨-, rfl⟩ := Prod.mk.inj ran <;> rfl

end Install

end Taproom.Builder
