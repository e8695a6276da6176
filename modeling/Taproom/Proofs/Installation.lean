import Taproom.Keg.Cellar
import Taproom.Proofs.Levels

/-!
Installing level by level, the members of a level side by side. In every run, whatever the order
in which the members of a level start and return and whatever comes of them, a formula starts only
after all that it depends on has returned without a fault.
-/

namespace Taproom.Installation

open Taproom.Order (OnLevel)

inductive Event where
  | opened (level : List String)
  | started (name : String)
  /-- There is no such formula, so that nothing is started. -/
  | refused (name : String) (fault : Fault)
  | returned (name : String) (result : Except Fault Unit)

/-- Where an installation is. Levels are opened one at a time. -/
structure State where
  later : List (List String)
  waiting : List String := []
  running : List String := []
  fault : Option Fault := none
  workshop : Workshop

/-- What may come of installing a formula beside others: a result and the workshop it leaves, given
whether its level has failed and the workshop as the others left it. -/
abbrev Conduct := String → Bool → Workshop → Except Fault Unit → Workshop → Prop

def faultOf : Except Fault Unit → Option Fault
  | .ok () => none
  | .error fault => some fault

/-- One thing that may happen next. Members of the open level start in any order, at most `jobs` at
a time, also after one of them failed; the next level is opened when all have returned and none
failed. -/
inductive Step (lookup : String → Except Fault Formula) (jobs : Int) (may : Conduct) :
    State → Event → State → Prop
  | start {s : State} {name : String} {f : Formula} (waits : name ∈ s.waiting)
      (room : (s.running.length : Int) < max jobs 1) (found : lookup name = .ok f) :
      Step lookup jobs may s (.started name)
        { s with waiting := s.waiting.erase name, running := name :: s.running }
  | refuse {s : State} {name : String} {fault : Fault} (waits : name ∈ s.waiting)
      (room : (s.running.length : Int) < max jobs 1) (missing : lookup name = .error fault) :
      Step lookup jobs may s (.refused name fault)
        { s with waiting := s.waiting.erase name, fault := s.fault.or (some fault) }
  | finish {s : State} {name : String} {result : Except Fault Unit} {w : Workshop}
      (runs : name ∈ s.running) (outcome : may name s.fault.isSome s.workshop result w) :
      Step lookup jobs may s (.returned name result)
        { s with
          running := s.running.erase name, fault := s.fault.or (faultOf result), workshop := w }
  | advance {s : State} {level : List String} {later : List (List String)}
      (started : s.waiting = []) (returned : s.running = []) (sound : s.fault = none)
      (more : s.later = level :: later) :
      Step lookup jobs may s (.opened level) { s with later := later, waiting := level }

inductive Run (lookup : String → Except Fault Formula) (jobs : Int) (may : Conduct) (first : State) :
    List Event → State → Prop
  | nil : Run lookup jobs may first [] first
  | snoc {trace : List Event} {s last : State} {e : Event} (run : Run lookup jobs may first trace s)
      (step : Step lookup jobs may s e last) : Run lookup jobs may first (trace ++ [e]) last

section Runs

variable {lookup : String → Except Fault Formula} {jobs : Int} {may : Conduct}
  {levels : List (List String)} {trace : List Event} {s : State}

theorem Run.split {first last : State} (run : Run lookup jobs may first trace last)
    {before after : List Event} {e : Event} (parts : trace = before ++ e :: after) :
    ∃ s s', Run lookup jobs may first before s ∧ Step lookup jobs may s e s' := by
  induction run generalizing after with
  | nil => simp at parts
  | @snoc trace s last e' run step ih =>
    rcases split_snoc parts with ⟨rfl, rfl⟩ | ⟨rest, parts⟩
    · exact ⟨s, last, run, step⟩
    · exact ih parts

/-- What holds while `level` is open: the levels before it are done, its members are accounted for,
and nothing of a later level was begun. The empty level before the first one stands for the time
when none is open yet. -/
structure Underway (levels : List (List String)) (trace : List Event) (s : State)
    (past : List (List String)) (level : List String) : Prop where
  split : [] :: levels = past ++ level :: s.later
  finished : ∀ n ∈ past.flatten, .returned n (.ok ()) ∈ trace
  members : ∀ n, n ∈ s.waiting ∨ n ∈ s.running → n ∈ level
  accounted : ∀ n ∈ level, n ∈ s.waiting ∨ n ∈ s.running ∨ .returned n (.ok ()) ∈ trace ∨
    s.fault.isSome
  begun : ∀ n, .started n ∈ trace → n ∈ past.flatten ∨ n ∈ level
  failed : ∀ n fault, .returned n (.error fault) ∈ trace ∨ .refused n fault ∈ trace →
    n ∈ level ∧ s.fault.isSome

namespace Underway

variable {past : List (List String)} {level : List String} {name n : String}

theorem begin (levels : List (List String)) (w : Workshop) :
    Underway levels [] ⟨levels, [], [], none, w⟩ [] [] := by
  refine ⟨rfl, ?_, ?_, ?_, ?_, ?_⟩ <;> simp

variable (underway : Underway levels trace s past level)

include underway

theorem start (waits : name ∈ s.waiting) :
    Underway levels (trace ++ [.started name])
      { s with waiting := s.waiting.erase name, running := name :: s.running } past level := by
  obtain ⟨split, finished, members, accounted, begun, failed⟩ := underway
  refine ⟨split, ?_, ?_, ?_, ?_, ?_⟩
  · intro n member
    exact List.mem_append_left _ (finished n member)
  · rintro n (waiting | running)
    · exact members n (Or.inl (List.mem_of_mem_erase waiting))
    · rcases List.mem_cons.mp running with rfl | running
      · exact members n (Or.inl waits)
      · exact members n (Or.inr running)
  · intro n member
    by_cases same : n = name
    · exact Or.inr (Or.inl (same ▸ List.mem_cons_self))
    · rcases accounted n member with waiting | running | returned | fault
      · exact Or.inl ((List.mem_erase_of_ne same).mpr waiting)
      · exact Or.inr (Or.inl (List.mem_cons_of_mem _ running))
      · exact Or.inr (Or.inr (Or.inl (List.mem_append_left _ returned)))
      · exact Or.inr (Or.inr (Or.inr fault))
  · intro n started
    rcases List.mem_append.mp started with started | started
    · exact begun n started
    · obtain rfl : n = name := by simpa using started
      exact Or.inr (members n (Or.inl waits))
  · intro n fault ending
    exact failed n fault (by simpa using ending)

theorem refuse (waits : name ∈ s.waiting) (fault : Fault) :
    Underway levels (trace ++ [.refused name fault])
      { s with waiting := s.waiting.erase name, fault := s.fault.or (some fault) } past level := by
  obtain ⟨split, finished, members, accounted, begun, failed⟩ := underway
  refine ⟨split, ?_, ?_, ?_, ?_, ?_⟩
  · intro n member
    exact List.mem_append_left _ (finished n member)
  · rintro n (waiting | running)
    · exact members n (Or.inl (List.mem_of_mem_erase waiting))
    · exact members n (Or.inr running)
  · intro n member
    exact Or.inr (Or.inr (Or.inr (by simp)))
  · intro n started
    exact begun n (by simpa using started)
  · intro n cause ending
    refine ⟨?_, by simp⟩
    rcases ending with ending | ending
    · exact (failed n cause (Or.inl (by simpa using ending))).1
    · rcases List.mem_append.mp ending with ending | ending
      · exact (failed n cause (Or.inr ending)).1
      · obtain ⟨rfl, -⟩ : n = name ∧ cause = fault := by simpa using ending
        exact members n (Or.inl waits)

theorem finish (runs : name ∈ s.running) (result : Except Fault Unit) (w : Workshop) :
    Underway levels (trace ++ [.returned name result])
      { s with
        running := s.running.erase name, fault := s.fault.or (faultOf result), workshop := w }
      past level := by
  obtain ⟨split, finished, members, accounted, begun, failed⟩ := underway
  refine ⟨split, ?_, ?_, ?_, ?_, ?_⟩
  · intro n member
    exact List.mem_append_left _ (finished n member)
  · rintro n (waiting | running)
    · exact members n (Or.inl waiting)
    · exact members n (Or.inr (List.mem_of_mem_erase running))
  · intro n member
    by_cases same : n = name
    · subst same
      cases result with
      | ok _ => exact Or.inr (Or.inr (Or.inl (by simp)))
      | error fault => exact Or.inr (Or.inr (Or.inr (by simp [faultOf])))
    · rcases accounted n member with waiting | running | returned | fault
      · exact Or.inl waiting
      · exact Or.inr (Or.inl ((List.mem_erase_of_ne same).mpr running))
      · exact Or.inr (Or.inr (Or.inl (List.mem_append_left _ returned)))
      · exact Or.inr (Or.inr (Or.inr (by simp [fault])))
  · intro n started
    exact begun n (by simpa using started)
  · intro n fault ending
    have old : .returned n (.error fault) ∈ trace ∨ .refused n fault ∈ trace →
        n ∈ level ∧ (s.fault.or (faultOf result)).isSome := by
      intro ending
      obtain ⟨inLevel, failing⟩ := failed n fault ending
      exact ⟨inLevel, by simp [failing]⟩
    rcases ending with ending | ending
    · rcases List.mem_append.mp ending with ending | ending
      · exact old (Or.inl ending)
      · obtain ⟨rfl, rfl⟩ : n = name ∧ Except.error fault = result := by simpa using ending
        exact ⟨members n (Or.inr runs), by simp [faultOf]⟩
    · exact old (Or.inr (by simpa using ending))

theorem advance {next : List String} {later : List (List String)} (started : s.waiting = [])
    (returned : s.running = []) (sound : s.fault = none) (more : s.later = next :: later) :
    Underway levels (trace ++ [.opened next]) { s with later := later, waiting := next }
      (past ++ [level]) next := by
  obtain ⟨split, finished, members, accounted, begun, failed⟩ := underway
  have done : ∀ n ∈ level, .returned n (.ok ()) ∈ trace := by
    intro n member
    simpa [started, returned, sound] using accounted n member
  refine ⟨?_, ?_, ?_, ?_, ?_, ?_⟩
  · rw [split, more, List.append_assoc]
    rfl
  · intro n member
    rw [List.flatten_append, List.flatten_singleton, List.mem_append] at member
    rcases member with member | member
    · exact List.mem_append_left _ (finished n member)
    · exact List.mem_append_left _ (done n member)
  · rintro n (waiting | running)
    · exact waiting
    · rw [returned] at running
      cases running
  · intro n member
    exact Or.inl member
  · intro n began
    rw [List.flatten_append, List.flatten_singleton, List.mem_append]
    exact Or.inl (begun n (by simpa using began))
  · intro n fault ending
    have failing := (failed n fault (by simpa using ending)).2
    rw [sound] at failing
    cases failing

theorem step {s' : State} {e : Event} (step : Step lookup jobs may s e s') :
    ∃ past level, Underway levels (trace ++ [e]) s' past level := by
  cases step with
  | start waits _ _ => exact ⟨past, level, underway.start waits⟩
  | refuse waits _ _ => exact ⟨past, level, underway.refuse waits _⟩
  | finish runs _ => exact ⟨past, level, underway.finish runs _ _⟩
  | advance started returned sound more =>
    exact ⟨past ++ [level], _, underway.advance started returned sound more⟩

theorem onLevel (member : n ∈ level) : ∃ i, past.length = i + 1 ∧ OnLevel levels i n := by
  have split := underway.split
  cases past with
  | nil =>
    obtain ⟨rfl, -⟩ := List.cons.inj split
    cases member
  | cons empty past =>
    obtain ⟨-, split⟩ := List.cons.inj (split.trans (List.cons_append ..))
    refine ⟨past.length, rfl, level, ?_, member⟩
    rw [split, List.getElem?_append_right (Nat.le_refl _), Nat.sub_self, List.getElem?_cons_zero]

theorem mem_past {i : Nat} (earlier : i + 1 < past.length) (placed : OnLevel levels i n) :
    n ∈ past.flatten := by
  obtain ⟨found, atIndex, member⟩ := placed
  have same : ([] :: levels)[i + 1]? = some found := atIndex
  rw [underway.split, List.getElem?_append_left earlier] at same
  exact List.mem_flatten.mpr ⟨found, List.mem_of_getElem? same, member⟩

theorem index_le (begun : n ∈ past.flatten ∨ n ∈ level) :
    ∃ i, i + 1 ≤ past.length ∧ OnLevel levels i n := by
  rcases begun with member | member
  · obtain ⟨found, inPast, member⟩ := List.mem_flatten.mp member
    obtain ⟨i, atIndex⟩ := List.getElem?_of_mem inPast
    have within := (List.getElem?_eq_some_iff.mp atIndex).1
    have same : ([] :: levels)[i]? = some found := by
      rw [underway.split, List.getElem?_append_left within, atIndex]
    cases i with
    | zero =>
      obtain rfl : [] = found := by simpa using same
      cases member
    | succ i => exact ⟨i, by omega, found, same, member⟩
  · obtain ⟨i, length, placed⟩ := underway.onLevel member
    exact ⟨i, by omega, placed⟩

end Underway

theorem Run.underway {w : Workshop} (run : Run lookup jobs may ⟨levels, [], [], none, w⟩ trace s) :
    ∃ past level, Underway levels trace s past level := by
  induction run with
  | nil => exact ⟨[], [], .begin levels w⟩
  | snoc _ step ih =>
    obtain ⟨past, level, underway⟩ := ih
    exact underway.step step

end Runs

end Taproom.Installation

namespace Taproom

/-! ### One after another -/

namespace Brew
variable {α β : Type}

theorem run_bind (x : Brew α) (f : α → Brew β) (w : Workshop) :
    run (x >>= f) w =
      match run x w with
      | (.ok a, w') => run (f a) w'
      | (.error e, w') => (.error e, w') := by
  unfold run
  rw [ExceptT.run_bind]
  simp only [StateT.run_bind]
  cases (ExceptT.run x).run w with
  | mk result w' => cases result <;> rfl

theorem run_attempt (x : Brew α) (w : Workshop) :
    run (attempt x) w = (.ok (run x w).1, (run x w).2) := rfl
end Brew

namespace Builder
variable (b : Builder) (lookup : String → Except Fault Formula) (o : Options)
  {name : String} {rest level : List String} {levels : List (List String)} {w w' : Workshop} {e : Fault}

theorem installNamed_refused (missing : lookup name = .error e) (w : Workshop) :
    (b.installNamed lookup o name).run w = (.error e, w) := by
  unfold installNamed
  rw [Brew.run_bind, missing]
  rfl

def windUp (names : List String) (w : Workshop) : Workshop :=
  names.foldl (fun w name => ((b.cancelled.installNamed lookup o name).run w).2) w

theorem run_windUp (names : List String) (w : Workshop) :
    Brew.run (forIn names PUnit.unit fun other _ => do
      let _ ← Brew.attempt (b.cancelled.installNamed lookup o other)
      pure (ForInStep.yield PUnit.unit)) w = (.ok PUnit.unit, b.windUp lookup o names w) := by
  induction names generalizing w with
  | nil => rfl
  | cons name names ih =>
    rw [List.forIn_cons, Brew.run_bind, Brew.run_bind, Brew.run_attempt]
    exact ih _

theorem installLevel_of_ok (success : (b.installNamed lookup o name).run w = (.ok (), w')) :
    (b.installLevel lookup o (name :: rest)).run w = (b.installLevel lookup o rest).run w' := by
  rw [installLevel, Brew.run_bind, Brew.run_attempt, success]

theorem installLevel_of_error (failed : (b.installNamed lookup o name).run w = (.error e, w')) :
    (b.installLevel lookup o (name :: rest)).run w = (.error e, b.windUp lookup o rest w') := by
  rw [installLevel, Brew.run_bind, Brew.run_attempt, failed]
  simp only [Brew.run_bind, run_windUp]
  rfl

theorem installAll_cons (level : List String) (levels : List (List String)) :
    b.installAll (level :: levels) lookup o =
      b.installLevel lookup o level >>= fun _ => b.installAll levels lookup o := rfl

theorem installAll_of_ok (success : (b.installLevel lookup o level).run w = (.ok (), w')) :
    (b.installAll (level :: levels) lookup o).run w = (b.installAll levels lookup o).run w' := by
  rw [installAll_cons, Brew.run_bind, success]

theorem installAll_of_error (failed : (b.installLevel lookup o level).run w = (.error e, w')) :
    (b.installAll (level :: levels) lookup o).run w = (.error e, w') := by
  rw [installAll_cons, Brew.run_bind, failed]

end Builder

namespace Installation

/-- Installing as the builder does it when nothing else happens meanwhile. Once the level has
failed, what is left of it is only wound up. -/
def conduct (b : Builder) (lookup : String → Except Fault Formula) (o : Builder.Options) : Conduct :=
  fun name stopped w result w' =>
    ((if stopped then b.cancelled else b).installNamed lookup o name).run w = (result, w')

def State.IsOver (s : State) : Prop :=
  s.waiting = [] ∧ s.running = [] ∧ (s.later = [] ∨ s.fault.isSome)

def State.result (s : State) : Except Fault Unit :=
  match s.fault with
  | none => .ok ()
  | some fault => .error fault

section Alone

variable {b : Builder} {lookup : String → Except Fault Formula} {o : Builder.Options} {jobs : Int}
  {first : State} {later : List (List String)} {w w' : Workshop} {trace : List Event}
  {result : Except Fault Unit} {name : String} {rest : List String}

theorem run_member {fault : Option Fault}
    (run : Run lookup jobs (conduct b lookup o) first trace ⟨later, name :: rest, [], fault, w⟩)
    (outcome : conduct b lookup o name fault.isSome w result w') :
    ∃ trace', Run lookup jobs (conduct b lookup o) first trace'
      ⟨later, rest, [], fault.or (faultOf result), w'⟩ := by
  have room : (([] : List String).length : Int) < max jobs 1 := by simp
  cases found : lookup name with
  | ok f =>
    have started := run.snoc (.start List.mem_cons_self room found)
    have returned := started.snoc (.finish List.mem_cons_self outcome)
    simp only [List.erase_cons_head] at returned
    exact ⟨_, returned⟩
  | error cause =>
    have refused := run.snoc (.refuse List.mem_cons_self room found)
    rw [conduct, Builder.installNamed_refused _ _ _ found, Prod.mk.injEq] at outcome
    obtain ⟨rfl, rfl⟩ := outcome
    simp only [List.erase_cons_head] at refused
    exact ⟨_, refused⟩

theorem run_windUp {fault : Fault}
    (run : Run lookup jobs (conduct b lookup o) first trace ⟨later, rest, [], some fault, w⟩) :
    ∃ trace', Run lookup jobs (conduct b lookup o) first trace'
      ⟨later, [], [], some fault, b.windUp lookup o rest w⟩ := by
  induction rest generalizing trace w with
  | nil => exact ⟨trace, run⟩
  | cons name rest ih =>
    obtain ⟨next, run⟩ := run_member run (Eq.refl (_, _))
    exact ih run

theorem run_level {names : List String}
    (run : Run lookup jobs (conduct b lookup o) first trace ⟨later, names, [], none, w⟩)
    (outcome : (b.installLevel lookup o names).run w = (result, w')) :
    ∃ trace', Run lookup jobs (conduct b lookup o) first trace'
      ⟨later, [], [], faultOf result, w'⟩ := by
  induction names generalizing trace w with
  | nil =>
    obtain ⟨rfl, rfl⟩ := Prod.mk.inj outcome
    exact ⟨trace, run⟩
  | cons name rest ih =>
    cases one : (b.installNamed lookup o name).run w with
    | mk single between =>
      obtain ⟨next, run⟩ := run_member run one
      cases single with
      | ok _ =>
        rw [Builder.installLevel_of_ok b lookup o one] at outcome
        exact ih run outcome
      | error fault =>
        rw [Builder.installLevel_of_error b lookup o one] at outcome
        obtain ⟨rfl, rfl⟩ := Prod.mk.inj outcome
        exact run_windUp run

theorem run_installAll {levels : List (List String)}
    (run : Run lookup jobs (conduct b lookup o) first trace ⟨levels, [], [], none, w⟩)
    (outcome : (b.installAll levels lookup o).run w = (result, w')) :
    ∃ trace' s, Run lookup jobs (conduct b lookup o) first trace' s ∧ s.IsOver ∧
      s.fault = faultOf result ∧ s.workshop = w' := by
  induction levels generalizing trace w with
  | nil =>
    obtain ⟨rfl, rfl⟩ := Prod.mk.inj outcome
    exact ⟨trace, _, run, ⟨rfl, rfl, Or.inl rfl⟩, rfl, rfl⟩
  | cons level levels ih =>
    have opened := run.snoc (.advance rfl rfl rfl rfl)
    cases one : (b.installLevel lookup o level).run w with
    | mk single between =>
      obtain ⟨next, run⟩ := run_level opened one
      cases single with
      | ok _ =>
        rw [Builder.installAll_of_ok b lookup o one] at outcome
        exact ih run outcome
      | error fault =>
        rw [Builder.installAll_of_error b lookup o one] at outcome
        obtain ⟨rfl, rfl⟩ := Prod.mk.inj outcome
        exact ⟨next, _, run, ⟨rfl, rfl, Or.inr rfl⟩, rfl, rfl⟩

end Alone

/-! ### Installing the levels of a graph -/

open Taproom.Order (OnLevel)

/-- Everything starts after the returns of all that it depends on: to run, and to be built if it is
built from source. -/
def StartsAfterNeeds (g : Graph) (fromSource : String → Bool) (trace : List Event) : Prop :=
  ∀ before n after, trace = before ++ .started n :: after →
    ∃ p, g.atom.packages.get? n = some p ∧
      ∀ d, p.run.contains d ∨ fromSource n ∧ p.build.contains d → .returned d (.ok ()) ∈ before

/-- Nothing starts on a level after one on which something fails. -/
def StopsAtFault (levels : List (List String)) (trace : List Event) : Prop :=
  ∀ i j n m fault, OnLevel levels i n → OnLevel levels j m → i < j →
    .returned n (.error fault) ∈ trace ∨ .refused n fault ∈ trace → .started m ∉ trace

theorem dependsOn_installKinds (p : Package) (fromSource : Bool) (d : String) :
    p.DependsOn (if fromSource then ["build", "run"] else ["run"]) d ↔
      p.run.contains d ∨ fromSource ∧ p.build.contains d := by
  cases fromSource
  · simp [Package.DependsOn]
  · simp [Package.DependsOn, or_comm]

section Levels

variable {g : Graph} {roots : List String} {fromSource : String → Bool}
  {levels : List (List String)} {lookup : String → Except Fault Formula} {jobs : Int}
  {may : Conduct} {w : Workshop} {trace : List Event} {s : State}

theorem Run.startsAfterNeeds (success : g.installLevels roots fromSource = .ok levels)
    (run : Run lookup jobs may ⟨levels, [], [], none, w⟩ trace s) :
    StartsAfterNeeds g fromSource trace := by
  intro before n after parts
  obtain ⟨names, ordered, leveled⟩ := Graph.levelsBy_isLevels success
  have settled := (Graph.orderBy_isOrder ordered).settled
  obtain ⟨s, s', run, step⟩ := run.split parts
  obtain ⟨past, level, underway⟩ := run.underway
  have waits : n ∈ s.waiting := by
    cases step
    assumption
  obtain ⟨i, length, placed⟩ := underway.onLevel (underway.members n (Or.inl waits))
  have inNames : n ∈ names :=
    leveled.perm.mem_iff.mp ((Order.mem_flatten_iff levels n).mpr ⟨i, placed⟩)
  obtain ⟨p, found⟩ := Option.isSome_iff_exists.mp (settled.knows inNames)
  refine ⟨p, found, ?_⟩
  intro d dependency
  have need : (g.web fun n => if fromSource n then ["build", "run"] else ["run"]).Needs n d :=
    ⟨p, found, (dependsOn_installKinds p (fromSource n) d).mpr dependency⟩
  obtain ⟨j, earlier, below⟩ := leveled.below settled placed need
  exact underway.finished d (underway.mem_past (by omega) below)

theorem Run.stopsAtFault (success : g.installLevels roots fromSource = .ok levels)
    (run : Run lookup jobs may ⟨levels, [], [], none, w⟩ trace s) : StopsAtFault levels trace := by
  intro i j n m fault first second before ending started
  obtain ⟨names, -, leveled⟩ := Graph.levelsBy_isLevels success
  obtain ⟨past, level, underway⟩ := run.underway
  obtain ⟨i', length, placed⟩ := underway.onLevel (underway.failed n fault ending).1
  obtain ⟨j', bound, begun⟩ := underway.index_le (underway.begun m started)
  have sameFirst := leveled.index_unique first placed
  have sameSecond := leveled.index_unique second begun
  omega

end Levels

/-- Whatever order the members of a level start and return in and whatever comes of them, what is
installed finds all that it depends on installed, and a failure keeps later levels from starting.
The builder's own way through the levels is one such run. -/
theorem installs_after_dependencies (g : Graph) (roots : List String)
    (fromSource : String → Bool) (levels : List (List String))
    (success : g.installLevels roots fromSource = .ok levels) (b : Builder)
    (lookup : String → Except Fault Formula) (o : Builder.Options) (jobs : Int) (w : Workshop) :
    (∀ may trace s, Run lookup jobs may ⟨levels, [], [], none, w⟩ trace s →
      StartsAfterNeeds g fromSource trace ∧ StopsAtFault levels trace) ∧
    ∃ trace s, Run lookup jobs (conduct b lookup o) ⟨levels, [], [], none, w⟩ trace s ∧
      s.IsOver ∧ (b.installAll levels lookup o).run w = (s.result, s.workshop) := by
  constructor
  · intro may trace s run
    exact ⟨run.startsAfterNeeds success, run.stopsAtFault success⟩
  · cases outcome : (b.installAll levels lookup o).run w with
    | mk result w' =>
      obtain ⟨trace, s, run, ended, fault, rfl⟩ := run_installAll .nil outcome
      refine ⟨trace, s, run, ended, ?_⟩
      rw [State.result, fault]
      cases result <;> rfl

def hermit : Builder where
  cellar := "cellar"
  fetcher := ⟨"cache", Http.unreachable, true⟩
  platform := ⟨"x86_64", "linux"⟩
  runner := fun _ d => ({}, d)
  temp := "tmp"
  now := ""

theorem diamond_installs_after_dependencies :
    Graph.diamond.installLevels ["app"] (· == "app") =
        .ok [["make", "zlib"], ["lib", "ssl"], ["app"]] ∧
      (∀ may trace s,
        Run (fun n => .ok { name := n }) 2 may
          ⟨[["make", "zlib"], ["lib", "ssl"], ["app"]], [], [], none, ⟨{}, ""⟩⟩ trace s →
        StartsAfterNeeds Graph.diamond (· == "app") trace ∧
          StopsAtFault [["make", "zlib"], ["lib", "ssl"], ["app"]] trace) ∧
      ∃ trace s,
        Run (fun n => .ok { name := n }) 2 (conduct hermit (fun n => .ok { name := n }) {})
          ⟨[["make", "zlib"], ["lib", "ssl"], ["app"]], [], [], none, ⟨{}, ""⟩⟩ trace s ∧
        s.IsOver := by
  have leveled : Graph.diamond.installLevels ["app"] (· == "app") =
      .ok [["make", "zlib"], ["lib", "ssl"], ["app"]] := by cbv
  obtain ⟨safe, trace, s, run, ended, -⟩ := installs_after_dependencies Graph.diamond ["app"] _ _
    leveled hermit (fun n => .ok { name := n }) {} 2 ⟨{}, ""⟩
  exact ⟨leveled, safe, trace, s, run, ended⟩

end Installation

end Taproom
