import Taproom.Cli.Make
import Taproom.Proofs.Installation

/-!
The command that installs. It installs the levels below the formulae that are named, and then these
themselves, one after the other as they were named. If they come from head sources they are left out
of the levels, so that their places among the others are lost: what needs one of them comes too
early, unless it is itself named and after what it needs.
-/

namespace Taproom

open Taproom.Order (OnLevel)

/-! ### Levels without some names -/

namespace Cli

variable {levels : List (List String)} {names : List String} {n m : String} {i j : Nat}

theorem flatten_without (levels : List (List String)) (names : List String) :
    (without levels names).flatten = levels.flatten.filter (!names.contains ·) := by
  induction levels with
  | nil => rfl
  | cons level levels ih =>
    rw [List.flatten_cons, List.filter_append, ← ih, without, List.map_cons, List.filter_cons]
    split
    · rfl
    · rename_i nothing
      have nothing : level.filter (!names.contains ·) = [] := by simpa using nothing
      rw [nothing]
      rfl

theorem mem_flatten_without : n ∈ (without levels names).flatten ↔ n ∈ levels.flatten ∧ n ∉ names := by
  rw [flatten_without, List.mem_filter]
  simp

theorem onLevel_without (first : OnLevel levels j m) (second : OnLevel levels i n) (before : j < i)
    (keeps : m ∉ names) (keeps' : n ∉ names) :
    ∃ j' i', OnLevel (without levels names) j' m ∧ OnLevel (without levels names) i' n ∧ j' < i' := by
  induction levels generalizing i j with
  | nil =>
    obtain ⟨level, found, -⟩ := first
    cases found
  | cons level levels ih =>
    obtain _ | i := i
    · omega
    have second : OnLevel levels i n := second
    -- A level that is left out moves the others up.
    have shift : ∀ {k x}, OnLevel (without levels names) k x → ∃ up,
        OnLevel (without (level :: levels) names) (k + up) x ∧
          up = if level.filter (!names.contains ·) = [] then 0 else 1 := by
      intro k x placed
      by_cases nothing : level.filter (!names.contains ·) = []
      · refine ⟨0, ?_, by rw [if_pos nothing]⟩
        rw [without, List.map_cons, List.filter_cons, nothing]
        exact placed
      · refine ⟨1, ?_, by rw [if_neg nothing]⟩
        rw [without, List.map_cons, List.filter_cons, if_pos (by simpa using nothing)]
        exact placed
    cases j with
    | zero =>
      obtain ⟨found, atIndex, member⟩ := first
      cases atIndex
      have something : level.filter (!names.contains ·) ≠ [] :=
        List.ne_nil_of_mem (List.mem_filter.mpr ⟨member, by simpa using keeps⟩)
      obtain ⟨k, placed⟩ := (Order.mem_flatten_iff ..).mp
        (mem_flatten_without.mpr ⟨(Order.mem_flatten_iff ..).mpr ⟨i, second⟩, keeps'⟩)
      obtain ⟨up, placed, rfl⟩ := shift placed
      rw [if_neg something] at placed
      refine ⟨0, k + 1, ⟨level.filter (!names.contains ·), ?_, ?_⟩, placed, by omega⟩
      · rw [without, List.map_cons, List.filter_cons, if_pos (by simpa using something)]
        rfl
      · exact List.mem_filter.mpr ⟨member, by simpa using keeps⟩
    | succ j =>
      have first : OnLevel levels j m := first
      obtain ⟨j', i', first, second, before⟩ := ih first second (by omega)
      obtain ⟨up, first, rfl⟩ := shift first
      obtain ⟨up', second, rfl⟩ := shift second
      exact ⟨_, _, first, second, by omega⟩

end Cli

theorem Order.onLevel_unique {levels : List (List String)} (distinct : levels.flatten.Nodup) {n : String}
    {i j : Nat} (first : OnLevel levels i n) (second : OnLevel levels j n) : i = j := by
  induction levels generalizing i j with
  | nil =>
    obtain ⟨level, found, -⟩ := first
    cases found
  | cons level levels ih =>
    rw [List.flatten_cons, List.nodup_append] at distinct
    have apart : ∀ {k}, OnLevel levels k n → n ∉ level := by
      intro k placed member
      exact distinct.2.2 n member n ((mem_flatten_iff ..).mpr ⟨k, placed⟩) rfl
    cases i with
    | zero =>
      obtain ⟨found, atIndex, member⟩ := first
      cases atIndex
      cases j with
      | zero => rfl
      | succ j => exact absurd member (apart second)
    | succ i =>
      cases j with
      | zero =>
        obtain ⟨found, atIndex, member⟩ := second
        cases atIndex
        exact absurd member (apart first)
      | succ j => exact congrArg (· + 1) (ih distinct.2.1 first second)

namespace Installation

variable {lookup : String → Except Fault Formula} {jobs : Int} {may mayNamed : Conduct}
  {levels : List (List String)} {trace : List Event} {s : State} {w w' : Workshop} {n m : String}

/-! ### Runs through levels -/

theorem Run.returned_below (distinct : levels.flatten.Nodup)
    (run : Run lookup jobs may ⟨levels, [], [], none, w⟩ trace s) {before after : List Event}
    (parts : trace = before ++ .started n :: after) {i j : Nat} (placed : OnLevel levels i n)
    (below : OnLevel levels j m) (earlier : j < i) : .returned m (.ok ()) ∈ before := by
  obtain ⟨s, s', run, step⟩ := run.split parts
  obtain ⟨past, level, underway⟩ := run.underway
  have waits : n ∈ s.waiting := by
    cases step
    assumption
  obtain ⟨k, length, opened⟩ := underway.onLevel (underway.members n (Or.inl waits))
  obtain rfl := Order.onLevel_unique distinct placed opened
  exact underway.finished m (underway.mem_past (by omega) below)

section

variable (run : Run lookup jobs may ⟨levels, [], [], none, w⟩ trace s)

include run

theorem Run.started_of_returned :
    (∀ n ∈ s.running, .started n ∈ trace) ∧
      ∀ n result, .returned n result ∈ trace → .started n ∈ trace := by
  induction run with
  | nil => simp
  | @snoc trace s last e run step ih =>
    obtain ⟨running, returned⟩ := ih
    cases step with
    | start waits room found =>
      refine ⟨?_, ?_⟩
      · intro n member
        rcases List.mem_cons.mp member with rfl | member
        · simp
        · exact List.mem_append_left _ (running n member)
      · intro n result ending
        exact List.mem_append_left _ (returned n result (by simpa using ending))
    | refuse waits room missing =>
      refine ⟨fun n member => List.mem_append_left _ (running n member), ?_⟩
      intro n result ending
      exact List.mem_append_left _ (returned n result (by simpa using ending))
    | @finish name result w runs outcome =>
      refine ⟨fun n member =>
        List.mem_append_left _ (running n (List.mem_of_mem_erase member)), ?_⟩
      intro n result' ending
      rcases List.mem_append.mp ending with ending | ending
      · exact List.mem_append_left _ (returned n result' ending)
      · obtain ⟨rfl, -⟩ : n = name ∧ result' = result := by simpa using ending
        exact List.mem_append_left _ (running n runs)
    | advance started isOver sound more =>
      refine ⟨fun n member => List.mem_append_left _ (running n member), ?_⟩
      intro n result ending
      exact List.mem_append_left _ (returned n result (by simpa using ending))

theorem Run.mem_flatten_of_started (started : .started n ∈ trace) : n ∈ levels.flatten := by
  obtain ⟨past, level, underway⟩ := run.underway
  obtain ⟨i, -, placed⟩ := underway.index_le (underway.begun n started)
  exact (Order.mem_flatten_iff ..).mpr ⟨i, placed⟩

theorem Run.returned_of_over (isOver : s.IsOver) (sound : s.fault = none) (member : n ∈ levels.flatten) :
    .returned n (.ok ()) ∈ trace := by
  obtain ⟨past, level, underway⟩ := run.underway
  obtain ⟨started, returned, last⟩ := isOver
  have last : s.later = [] := by simpa [sound] using last
  have split : levels.flatten = past.flatten ++ level := by
    have flat := congrArg List.flatten underway.split
    simpa [last] using flat
  rw [split, List.mem_append] at member
  rcases member with member | member
  · exact underway.finished n member
  · simpa [started, returned, sound] using underway.accounted n member

end

/-! ### Named formulae -/

/-- Installing named formulae one after the other, up to the first that fails. -/
inductive RunNamed (lookup : String → Except Fault Formula) (may : Conduct) :
    List String → Workshop → List Event → Except Fault Unit → Workshop → Prop
  | nil {w : Workshop} : RunNamed lookup may [] w [] (.ok ()) w
  | refused {name : String} {names : List String} {w : Workshop} {fault : Fault}
      (missing : lookup name = .error fault) :
      RunNamed lookup may (name :: names) w [.refused name fault] (.error fault) w
  | failed {name : String} {names : List String} {w w' : Workshop} {f : Formula} {fault : Fault}
      (found : lookup name = .ok f) (outcome : may name false w (.error fault) w') :
      RunNamed lookup may (name :: names) w [.started name, .returned name (.error fault)]
        (.error fault) w'
  | installed {name : String} {names : List String} {w w' last : Workshop} {f : Formula}
      {trace : List Event} {result : Except Fault Unit} (found : lookup name = .ok f)
      (outcome : may name false w (.ok ()) w') (rest : RunNamed lookup may names w' trace result last) :
      RunNamed lookup may (name :: names) w (.started name :: .returned name (.ok ()) :: trace)
        result last

section Named

variable {names : List String} {result : Except Fault Unit}

theorem RunNamed.returned_before (run : RunNamed lookup may names w trace result w')
    {before after : List Event} (parts : trace = before ++ .started n :: after) :
    ∃ earlier later, names = earlier ++ n :: later ∧
      ∀ m ∈ earlier, .returned m (.ok ()) ∈ before := by
  induction run generalizing before with
  | nil => simp at parts
  | refused missing => cases before <;> simp at parts
  | @failed name names w w' f fault found outcome =>
    cases before with
    | nil =>
      obtain ⟨rfl, -⟩ : name = n ∧ _ := by simpa using parts
      exact ⟨[], names, rfl, by simp⟩
    | cons e before => cases before <;> simp at parts
  | @installed name names w w' last f trace result found outcome rest ih =>
    cases before with
    | nil =>
      obtain ⟨rfl, -⟩ : name = n ∧ _ := by simpa using parts
      exact ⟨[], names, rfl, by simp⟩
    | cons e before =>
      cases before with
      | nil => simp at parts
      | cons e' before =>
        simp only [List.cons_append, List.cons.injEq] at parts
        obtain ⟨rfl, rfl, parts⟩ := parts
        obtain ⟨earlier, later, rfl, returned⟩ := ih parts
        refine ⟨name :: earlier, later, rfl, ?_⟩
        intro m member
        rcases List.mem_cons.mp member with rfl | member
        · simp
        · exact List.mem_cons_of_mem _ (List.mem_cons_of_mem _ (returned m member))

def installedEvents (n : String) : List Event := [.started n, .returned n (.ok ())]

theorem RunNamed.trace_eq (run : RunNamed lookup may names w trace result w')
    (success : result = .ok ()) : trace = names.flatMap installedEvents := by
  induction run with
  | nil => rfl
  | refused missing => cases success
  | failed found outcome => cases success
  | installed found outcome rest ih => rw [ih success, List.flatMap_cons, installedEvents]; rfl

end Named

/-! ### The whole command -/

/-- What shows of the command, and once it is over what comes of it: the levels are installed side by
side, and if that succeeds the named formulae are installed one after the other. -/
inductive Command (lookup : String → Except Fault Formula) (jobs : Int) (may mayNamed : Conduct)
    (levels : List (List String)) (roots : List String) (w : Workshop) :
    List Event → Option (Except Fault Unit × Workshop) → Prop
  | underway {trace : List Event} {s : State}
      (run : Run lookup jobs may ⟨levels, [], [], none, w⟩ trace s) :
      Command lookup jobs may mayNamed levels roots w trace none
  | stopped {trace : List Event} {s : State} {fault : Fault}
      (run : Run lookup jobs may ⟨levels, [], [], none, w⟩ trace s) (isOver : s.IsOver)
      (failed : s.fault = some fault) :
      Command lookup jobs may mayNamed levels roots w trace (some (.error fault, s.workshop))
  | named {trace trace' : List Event} {s : State} {result : Except Fault Unit} {last : Workshop}
      (run : Run lookup jobs may ⟨levels, [], [], none, w⟩ trace s) (isOver : s.IsOver)
      (sound : s.fault = none) (rest : RunNamed lookup mayNamed roots s.workshop trace' result last) :
      Command lookup jobs may mayNamed levels roots w (trace ++ trace') (some (result, last))

/-- A dependency that the levels follow: it is needed to run, or to build what is built. -/
def Follows (g : Graph) (fromSource : String → Bool) (levels : List (List String)) (n d : String) :
    Prop :=
  n ∈ levels.flatten ∧ ∃ p, g.atom.packages.get? n = some p ∧
    (p.run.contains d ∨ fromSource n ∧ p.build.contains d)

/-- When something is first started, all dependencies that are followed for it were installed. -/
def FirstAfterNeeds (g : Graph) (fromSource : String → Bool) (levels : List (List String))
    (trace : List Event) : Prop :=
  ∀ before n after, trace = before ++ .started n :: after → .started n ∉ before →
    ∀ d, Follows g fromSource levels n d → .returned d (.ok ()) ∈ before

/-- Whatever needs a named formula is named as well, after it. -/
def NamedAfterNeeds (g : Graph) (fromSource : String → Bool) (levels : List (List String))
    (roots : List String) : Prop :=
  ∀ n d, Follows g fromSource levels n d → d ∈ roots →
    ∃ earlier later, roots = earlier ++ n :: later ∧ d ∈ earlier

section Commands

variable {g : Graph} {fromSource : String → Bool} {roots : List String}
  {outcome : Option (Except Fault Unit × Workshop)}

theorem split_append {α : Type} {first second before after : List α} {x : α}
    (split : first ++ second = before ++ x :: after) :
    (∃ rest, first = before ++ x :: rest) ∨
      ∃ between, before = first ++ between ∧ second = between ++ x :: after := by
  rcases List.append_eq_append_iff.mp split with ⟨between, rfl, rest⟩ | ⟨rest, rfl, tail⟩
  · exact .inr ⟨between, rfl, rest⟩
  · cases rest with
    | nil => exact .inr ⟨[], by simp, tail.symm⟩
    | cons y rest =>
      obtain ⟨rfl, -⟩ := List.cons.inj tail
      exact .inl ⟨rest, rfl⟩

theorem levels_below (success : g.installLevels roots fromSource = .ok levels) :
    levels.flatten.Nodup ∧ ∀ n d i, Follows g fromSource levels n d → OnLevel levels i n →
      ∃ j < i, OnLevel levels j d := by
  obtain ⟨names, ordered, leveled⟩ := Graph.levelsBy_isLevels success
  have isOrder := Graph.orderBy_isOrder ordered
  refine ⟨leveled.perm.nodup_iff.mpr isOrder.distinct, ?_⟩
  rintro n d i ⟨-, p, found, dependency⟩ placed
  exact leveled.below isOrder.settled placed
    ⟨p, found, (dependsOn_installKinds p (fromSource n) d).mpr dependency⟩

theorem Follows.mem (success : g.installLevels roots fromSource = .ok levels) {d : String}
    (follows : Follows g fromSource levels n d) : d ∈ levels.flatten := by
  obtain ⟨i, placed⟩ := (Order.mem_flatten_iff ..).mp follows.1
  obtain ⟨j, -, below⟩ := (levels_below success).2 n d i follows placed
  exact (Order.mem_flatten_iff ..).mpr ⟨j, below⟩

theorem Command.parts {held : List (List String)}
    (command : Command lookup jobs may mayNamed held roots w trace outcome) :
    ∃ s first second, Run lookup jobs may ⟨held, [], [], none, w⟩ first s ∧
      trace = first ++ second ∧
      (second = [] ∨ s.IsOver ∧ s.fault = none ∧
        ∃ result last, RunNamed lookup mayNamed roots s.workshop second result last) := by
  cases command with
  | underway run => exact ⟨_, trace, [], run, by simp, .inl rfl⟩
  | stopped run isOver failed => exact ⟨_, trace, [], run, by simp, .inl rfl⟩
  | named run isOver sound rest => exact ⟨_, _, _, run, rfl, .inr ⟨isOver, sound, _, _, rest⟩⟩

theorem Command.first_start {held : List (List String)}
    (command : Command lookup jobs may mayNamed held roots w trace outcome)
    {before after : List Event} (start : trace = before ++ .started n :: after)
    (isFirst : .started n ∉ before) :
    (∃ s first rest, Run lookup jobs may ⟨held, [], [], none, w⟩ first s ∧
      first = before ++ .started n :: rest) ∨
    n ∉ held.flatten ∧ (∀ m ∈ held.flatten, .returned m (.ok ()) ∈ before) ∧
      ∃ earlier later, roots = earlier ++ n :: later ∧
        ∀ m ∈ earlier, .returned m (.ok ()) ∈ before := by
  obtain ⟨s, first, second, run, rfl, rest⟩ := command.parts
  rcases split_append start with ⟨rest, inFirst⟩ | ⟨between, rfl, inSecond⟩
  · exact .inl ⟨s, first, rest, run, inFirst⟩
  · rcases rest with nothing | ⟨isOver, sound, result, last, named⟩
    · rw [nothing] at inSecond
      simp at inSecond
    · refine .inr ⟨?_, ?_, ?_⟩
      · intro member
        have returned := run.returned_of_over isOver sound member
        exact isFirst (List.mem_append_left _ (run.started_of_returned.2 n _ returned))
      · intro m member
        exact List.mem_append_left _ (run.returned_of_over isOver sound member)
      · obtain ⟨earlier, later, split, returned⟩ := named.returned_before inSecond
        exact ⟨earlier, later, split, fun m member => List.mem_append_right _ (returned m member)⟩

theorem Command.firstAfterNeeds (success : g.installLevels roots fromSource = .ok levels)
    (command : Command lookup jobs may mayNamed levels roots w trace outcome) :
    FirstAfterNeeds g fromSource levels trace := by
  obtain ⟨distinct, below⟩ := levels_below success
  intro before n after start isFirst d follows
  rcases command.first_start start isFirst with ⟨s, first, rest, run, inFirst⟩ | ⟨absent, -⟩
  · obtain ⟨i, placed⟩ := (Order.mem_flatten_iff ..).mp follows.1
    obtain ⟨j, earlier, deeper⟩ := below n d i follows placed
    exact run.returned_below distinct inFirst placed deeper earlier
  · exact absurd follows.1 absent

/-- Without the named formulae among the levels, they have to be named in order and nothing else may
need them. -/
theorem Command.firstAfterNeeds_without (success : g.installLevels roots fromSource = .ok levels)
    (distinct : roots.Nodup)
    (command : Command lookup jobs may mayNamed (Cli.without levels roots) roots w trace outcome)
    (ordered : NamedAfterNeeds g fromSource levels roots) :
    FirstAfterNeeds g fromSource levels trace := by
  obtain ⟨once, below⟩ := levels_below success
  have once' : (Cli.without levels roots).flatten.Nodup := by
    rw [Cli.flatten_without]
    exact once.filter _
  intro before n after start isFirst d follows
  rcases command.first_start start isFirst with
    ⟨s, first, rest, run, inFirst⟩ | ⟨absent, returned, earlier, later, split, returned'⟩
  · have kept : n ∉ roots := by
      have started : .started n ∈ first := by simp [inFirst]
      exact (Cli.mem_flatten_without.mp (run.mem_flatten_of_started started)).2
    have other : d ∉ roots := by
      intro named
      obtain ⟨earlier, later, rfl, -⟩ := ordered n d follows named
      exact kept (by simp)
    obtain ⟨i, placed⟩ := (Order.mem_flatten_iff ..).mp follows.1
    obtain ⟨j, less, deeper⟩ := below n d i follows placed
    obtain ⟨j', i', deeper, placed, less⟩ := Cli.onLevel_without deeper placed less other kept
    exact run.returned_below once' inFirst placed deeper less
  · by_cases named : d ∈ roots
    · obtain ⟨earlier', later', split', member⟩ := ordered n d follows named
      rw [split, List.nodup_middle, List.nodup_cons, List.mem_append, not_or] at distinct
      have same := ((List.append_cons_inj_of_notMem distinct.1.1 distinct.1.2).mp
        (split.symm.trans split')).1
      exact returned' d (same ▸ member)
    · exact returned d (Cli.mem_flatten_without.mpr ⟨follows.mem success, named⟩)

/-- A command that succeeds did everything in order only if what is named is in order. -/
theorem Command.namedAfterNeeds (distinct : roots.Nodup) {last : Workshop}
    (command : Command lookup jobs may mayNamed (Cli.without levels roots) roots w trace
      (some (.ok (), last)))
    (inOrder : FirstAfterNeeds g fromSource levels trace) :
    NamedAfterNeeds g fromSource levels roots := by
  cases command with
  | @named trace trace' s result last run isOver sound rest =>
    have left : ∀ {m}, m ∈ roots → .started m ∉ trace := fun named started =>
      (Cli.mem_flatten_without.mp (run.mem_flatten_of_started started)).2 named
    have unreturned : ∀ {m}, m ∈ roots → .returned m (.ok ()) ∉ trace := fun named returned =>
      left named (run.started_of_returned.2 _ _ returned)
    intro n d follows needed
    by_cases own : n ∈ roots
    · obtain ⟨earlier, later, rfl⟩ := List.append_of_mem own
      have alone : n ∉ earlier := by
        rw [List.nodup_middle, List.nodup_cons, List.mem_append, not_or] at distinct
        exact distinct.1.1
      rw [rest.trace_eq rfl] at inOrder
      have returned := inOrder (trace ++ earlier.flatMap installedEvents) n
        (.returned n (.ok ()) :: later.flatMap installedEvents) (by simp [installedEvents])
        (by simpa [installedEvents, alone] using left own) d follows
      refine ⟨earlier, later, rfl, ?_⟩
      simpa [unreturned needed, installedEvents] using returned
    · have member := Cli.mem_flatten_without.mpr ⟨follows.1, own⟩
      have started := run.started_of_returned.2 n _ (run.returned_of_over isOver sound member)
      obtain ⟨before, after, split, isFirst⟩ := List.eq_append_cons_of_mem started
      have returned := inOrder before n (after ++ trace') (by simp [split]) isFirst d follows
      exact absurd (by simp [split, returned]) (unreturned needed)

end Commands

/-! ### The command as it is -/

def conductNamed (b : Builder) (lookup : String → Except Fault Formula) (o : Builder.Options) :
    Conduct :=
  fun name _ w result w' => ∃ f keg, lookup name = .ok f ∧ (b.install f o).run w = (keg, w') ∧
    result = keg.map fun _ => ()

end Installation

namespace Cli

variable {α β : Type}

theorem Job.run_bind (x : Job α) (f : α → Job β) (c : Console) :
    run (x >>= f) c =
      match run x c with
      | (.ok a, c') => run (f a) c'
      | (.error e, c') => (.error e, c') := by
  unfold run
  rw [ExceptT.run_bind]
  simp only [StateT.run_bind]
  cases (ExceptT.run x).run c with
  | mk result c' => cases result <;> rfl

theorem Job.run_lift (b : Brew α) (c : Console) :
    run (liftM b : Job α) c = ((b.run c.workshop).1, { c with workshop := (b.run c.workshop).2 }) :=
  rfl

theorem runNamed_forM (s : Setting) (d : Disk) (o : Builder.Options) (roots : List String)
    (c : Console) :
    ∃ trace, Installation.RunNamed (s.tap.load d)
      (Installation.conductNamed s.builder (s.tap.load d) o) roots c.workshop trace
      ((roots.forM (installRoot s d o)).run c).1 ((roots.forM (installRoot s d o)).run c).2.workshop := by
  induction roots generalizing c with
  | nil => exact ⟨[], .nil⟩
  | cons name names ih =>
    have unfolded : ((name :: names).forM (installRoot s d o)).run c = _ :=
      Job.run_bind (installRoot s d o name) (fun _ => names.forM (installRoot s d o)) c
    rw [unfolded, installRoot, Job.run_bind]
    cases loaded : s.tap.load d name with
    | error fault => exact ⟨_, .refused loaded⟩
    | ok f =>
      have checked : Job.run (Job.check (.ok f)) c = (.ok f, c) := rfl
      simp only [checked, Job.run_bind, Job.run_lift]
      cases installed : (s.builder.install f o).run c.workshop with
      | mk keg w =>
        cases keg with
        | error fault => exact ⟨_, .failed loaded ⟨f, _, loaded, installed, rfl⟩⟩
        | ok keg =>
          obtain ⟨trace, rest⟩ := ih
            { workshop := w, output := c.output ++ (keg ++ "\n") }
          exact ⟨_, .installed loaded ⟨f, _, loaded, installed, rfl⟩ rest⟩

theorem command_install (s : Setting) (o : Builder.Options) (names : List String) (c : Console)
    (jobs : Int) {g : Graph} {roots : List String} {levels : List (List String)}
    (graphed : (graph s).run c = (.ok g, c)) (named : canonical g names = .ok roots)
    (leveled : g.installLevels roots (buildsFromSource s c.workshop.disk roots o) = .ok levels) :
    ∃ trace, Installation.Command (s.tap.load c.workshop.disk) jobs
      (Installation.conduct s.builder (s.tap.load c.workshop.disk) { o with head := false })
      (Installation.conductNamed s.builder (s.tap.load c.workshop.disk) o)
      (if o.head then without levels roots else levels) roots c.workshop trace
      (some (((install s o names).run c).1, ((install s o names).run c).2.workshop)) := by
  have read : Job.run Job.disk c = (.ok c.workshop.disk, c) := rfl
  have checked : Job.run (Job.check (.ok roots)) c = (.ok roots, c) := rfl
  have checked' : Job.run (Job.check (.ok levels)) c = (.ok levels, c) := rfl
  rw [install, Job.run_bind, graphed]
  dsimp only
  rw [Job.run_bind, read]
  dsimp only
  rw [Job.run_bind, named, checked]
  dsimp only
  rw [Job.run_bind, leveled, checked']
  dsimp only
  rw [Job.run_bind, Job.run_lift]
  generalize (if o.head then without levels roots else levels) = held
  cases outcome : (s.builder.installAll held (s.tap.load c.workshop.disk)
      { o with head := false }).run c.workshop with
  | mk result w =>
    have start : Installation.Run (s.tap.load c.workshop.disk) jobs
      (Installation.conduct s.builder (s.tap.load c.workshop.disk) { o with head := false })
      ⟨held, [], [], none, c.workshop⟩ [] ⟨held, [], [], none, c.workshop⟩ := .nil
    obtain ⟨trace, st, run, isOver, fault, rfl⟩ := Installation.run_installAll start outcome
    cases result with
    | error cause => exact ⟨trace, .stopped run isOver fault⟩
    | ok _ =>
      obtain ⟨trace', rest⟩ := runNamed_forM s c.workshop.disk o roots
        { c with workshop := st.workshop }
      exact ⟨trace ++ trace', .named run isOver fault rest⟩

end Cli

namespace Installation

/-- In whatever way the command goes through the levels and the named formulae, everything comes after
what is followed for it, unless head sources are asked for; then it does so exactly if what needs a
named formula is itself named after it. -/
theorem command_in_order_iff (g : Graph) (roots : List String) (fromSource : String → Bool)
    (levels : List (List String)) (success : g.installLevels roots fromSource = .ok levels)
    (distinct : roots.Nodup) (head : Bool) :
    (∀ lookup jobs may mayNamed w trace outcome,
      Command lookup jobs may mayNamed (if head then Cli.without levels roots else levels) roots w
        trace outcome →
      ((head = true → NamedAfterNeeds g fromSource levels roots) →
        FirstAfterNeeds g fromSource levels trace) ∧
      ∀ last, outcome = some (.ok (), last) → FirstAfterNeeds g fromSource levels trace →
        head = true → NamedAfterNeeds g fromSource levels roots) ∧
    ∀ (s : Cli.Setting) (o : Builder.Options) (names : List String) (c : Cli.Console) (jobs : Int),
      (Cli.graph s).run c = (.ok g, c) → Cli.canonical g names = .ok roots →
      fromSource = Cli.buildsFromSource s c.workshop.disk roots o → o.head = head →
      ∃ trace, Command (s.tap.load c.workshop.disk) jobs
        (conduct s.builder (s.tap.load c.workshop.disk) { o with head := false })
        (conductNamed s.builder (s.tap.load c.workshop.disk) o)
        (if head then Cli.without levels roots else levels) roots c.workshop trace
        (some (((Cli.install s o names).run c).1, ((Cli.install s o names).run c).2.workshop)) := by
  constructor
  · intro lookup jobs may mayNamed w trace outcome command
    cases head with
    | false => exact ⟨fun _ => command.firstAfterNeeds success, fun _ _ _ isHead => nomatch isHead⟩
    | true =>
      refine ⟨fun ordered => command.firstAfterNeeds_without success distinct (ordered rfl), ?_⟩
      rintro last rfl inOrder -
      exact command.namedAfterNeeds distinct inOrder
  · rintro s o names c jobs graphed named rfl rfl
    exact Cli.command_install s o names c jobs graphed named success

/-- A library is named before the application that needs it, and both come from head sources. -/
theorem diamond_command_in_order :
    Graph.diamond.installLevels ["lib", "app"] (· == "app") =
        .ok [["make", "zlib"], ["lib", "ssl"], ["app"]] ∧
      ∀ lookup jobs may mayNamed w trace outcome,
        Command lookup jobs may mayNamed
          (Cli.without [["make", "zlib"], ["lib", "ssl"], ["app"]] ["lib", "app"]) ["lib", "app"] w
          trace outcome →
        FirstAfterNeeds Graph.diamond (· == "app") [["make", "zlib"], ["lib", "ssl"], ["app"]] trace := by
  have leveled : Graph.diamond.installLevels ["lib", "app"] (· == "app") =
      .ok [["make", "zlib"], ["lib", "ssl"], ["app"]] := by cbv
  have named : NamedAfterNeeds Graph.diamond (· == "app")
      [["make", "zlib"], ["lib", "ssl"], ["app"]] ["lib", "app"] := by
    rintro n d ⟨member, p, found, dependency⟩ needed
    have needs : ∀ n ∈ ["make", "zlib", "lib", "ssl", "app"], ∀ d ∈ ["lib", "app"],
        ((Graph.diamond.atom.packages.get? n).any fun p =>
          p.run.contains d || (n == "app") && p.build.contains d) = true → n = "app" ∧ d = "lib" := by
      decide
    obtain ⟨rfl, rfl⟩ := needs n member d needed (by simpa [found] using dependency)
    exact ⟨["lib"], [], rfl, List.mem_cons_self⟩
  refine ⟨leveled, ?_⟩
  intro lookup jobs may mayNamed w trace outcome command
  exact ((command_in_order_iff Graph.diamond _ _ _ leveled (by decide) true).1 lookup jobs may mayNamed
    w trace outcome command).1 fun _ => named

def smooth : Conduct := fun _ _ w result w' => result = .ok () ∧ w' = w

/-- A library that is named after what needs it comes too late, if both come from head sources. -/
theorem misordered_lib_before_zlib :
    Graph.diamond.installLevels ["lib", "zlib"] (fun _ => false) = .ok [["zlib"], ["lib"]] ∧
      ∃ trace w, Command (fun n => .ok { name := n }) 1 smooth smooth
          (Cli.without [["zlib"], ["lib"]] ["lib", "zlib"]) ["lib", "zlib"] ⟨{}, ""⟩ trace
          (some (.ok (), w)) ∧
        ¬ FirstAfterNeeds Graph.diamond (fun _ => false) [["zlib"], ["lib"]] trace := by
  have run : Run (fun n => .ok { name := n }) 1 smooth
      ⟨Cli.without [["zlib"], ["lib"]] ["lib", "zlib"], [], [], none, ⟨{}, ""⟩⟩ []
      ⟨[], [], [], none, ⟨{}, ""⟩⟩ := by
    have nothing : Cli.without [["zlib"], ["lib"]] ["lib", "zlib"] = [] := by decide
    rw [nothing]
    exact .nil
  refine ⟨by cbv, _, _, .named run ⟨rfl, rfl, .inl rfl⟩ rfl
    (.installed rfl ⟨rfl, rfl⟩ (.installed rfl ⟨rfl, rfl⟩ .nil)), ?_⟩
  intro inOrder
  have returned := inOrder [] "lib" _ rfl List.not_mem_nil "zlib"
    ⟨by decide, { name := "lib", run := .ofList ["zlib"] }, rfl, by decide⟩
  cases returned

end Installation

end Taproom
