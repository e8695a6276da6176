import Taproom.Proofs.Dict
import Taproom.Scheduler.Nomad

/-!
Slots of a cluster. Builds run as jobs, and a job about which the cluster tells nothing is not
counted: there are as many jobs for a platform as it has slots, and beside them those that were not
counted.
-/

namespace Taproom.Nomad

variable {n n' : Nomad} {b : Build} {tag : String}

def Job.target (j : Job) : String := j.metadata.getD "platform" ""

def active (n : Nomad) (tag : String) : List Job := n.jobs.filter fun j => j.isActive && j.target = tag

def hidden (n : Nomad) (tag : String) : List Job := (n.active tag).filter (·.fault.isSome)

def counted (n : Nomad) (p : Platform) : Nat :=
  n.jobs.countP fun j => j.isActive && j.fault.isNone && Platform.ofTag j.target = p

def jobFor (n : Nomad) (b : Build) : Job := { type := "batch", status := "running", metadata := n.describe b }

def submit (n : Nomad) (b : Build) : Nomad := { n with jobs := n.jobs ++ [n.jobFor b] }

/-! ### One dispatch -/

theorem length_running_eq_counted (p : Platform) :
    (((n.jobs.filter fun j => j.isActive && j.fault.isNone).map fun j =>
      Build.ofDict j.metadata).filter fun o => o.platform = p).length = n.counted p := by
  rw [← List.countP_eq_length_filter, List.countP_map, List.countP_filter, counted]
  congr 1
  funext j
  exact Bool.and_comm ..

theorem dispatch_eq (n : Nomad) (b : Build) : dispatch b n =
    if n.listFault.isSome ∨ n.slots.getD b.platform.tag 0 ≤ n.counted b.platform then (.error .noCapacity, n)
    else
      match n.dispatchFault with
      | some f => (.error f, n)
      | none => (.ok (), n.submit b) := by
  cases listed : n.listFault with
  | some f =>
    have unknown : n.running = .error f := by rw [running, listed]
    rw [dispatch, unknown]
    rfl
  | none =>
    have known : n.running = .ok ((n.jobs.filter fun j => j.isActive && j.fault.isNone).map fun j =>
        Build.ofDict j.metadata) := by
      rw [running, listed]
    rw [dispatch, known]
    simp only [length_running_eq_counted, Option.isSome_none, Bool.false_eq_true, false_or]
    exact if_congr (by omega) rfl rfl

theorem dispatch_eq_ok_iff : dispatch b n = (.ok (), n') ↔ n.listFault = none ∧ n.dispatchFault = none ∧
    (n.counted b.platform : Int) < n.slots.getD b.platform.tag 0 ∧ n' = n.submit b := by
  rw [dispatch_eq]
  split
  · rename_i full
    simp only [Prod.mk.injEq, reduceCtorEq, false_and, false_iff]
    rintro ⟨listed, -, room, -⟩
    rw [listed] at full
    simp only [Option.isSome_none, Bool.false_eq_true, false_or] at full
    omega
  · rename_i free
    rw [not_or, Option.not_isSome_iff_eq_none, Int.not_le] at free
    cases n.dispatchFault with
    | some f => simp
    | none => simp [free, eq_comm]

theorem dispatch_refused {f : Fault} (refused : dispatch b n = (.error f, n')) : n' = n := by
  rw [dispatch_eq] at refused
  split at refused
  · exact (congrArg Prod.snd refused).symm
  · split at refused
    · exact (congrArg Prod.snd refused).symm
    · cases refused

/-! ### Jobs in progress -/

theorem length_active_le (n : Nomad) (tag : String) :
    (n.active tag).length ≤ n.counted (.ofTag tag) + (n.hidden tag).length := by
  have split : (n.active tag).length = _ := List.length_eq_countP_add_countP fun j : Job => j.fault.isSome
  rw [split, hidden, ← List.countP_eq_length_filter, Nat.add_comm, active, List.countP_filter, counted]
  refine Nat.add_le_add_right (List.countP_mono_left fun j _ known => ?_) _
  simp only [Bool.and_eq_true, decide_eq_true_eq] at known ⊢
  obtain ⟨seen, isActive, rfl⟩ := known
  exact ⟨⟨isActive, by simpa using seen⟩, rfl⟩

theorem target_jobFor (n : Nomad) (b : Build) : (n.jobFor b).target = b.platform.tag := by
  have given : b.toDict.get? "platform" = some b.platform.tag := Dict.get?_ofList [] _ _ (by simp)
  rw [Job.target, jobFor, describe, Dict.getD_insert_of_ne _ (by decide), Dict.getD, given]
  rfl

theorem active_submit : (n.submit b).active tag =
    n.active tag ++ if b.platform.tag = tag then [n.jobFor b] else [] := by
  have isActive : (n.jobFor b).isActive = true := rfl
  rw [active, submit, List.filter_append, List.filter_singleton, isActive, target_jobFor, active]
  by_cases same : b.platform.tag = tag <;> simp [same]

theorem hidden_dispatch (n : Nomad) (b : Build) (tag : String) : (dispatch b n).2.hidden tag = n.hidden tag := by
  rcases ran : dispatch b n with ⟨f | u, n'⟩
  · rw [dispatch_refused ran]
  · obtain ⟨-, -, -, rfl⟩ := dispatch_eq_ok_iff.mp ran
    rw [hidden, hidden, active_submit]
    split <;> simp [jobFor]

/-- A dispatch takes the slots of a platform as they are, and if nothing is hidden leaves at most as
many jobs as there are slots, or as there were before. -/
theorem length_active_dispatch (named : Platform.ofTag b.platform.tag = b.platform) (known : n.hidden tag = []) :
    (dispatch b n).2.slots = n.slots ∧
      (((dispatch b n).2.active tag).length : Int) ≤ max ((n.active tag).length : Int) (n.slots.getD tag 0) := by
  rcases ran : dispatch b n with ⟨f | u, n'⟩
  · rw [dispatch_refused ran]
    exact ⟨rfl, le_max_left ..⟩
  · obtain ⟨-, -, room, rfl⟩ := dispatch_eq_ok_iff.mp ran
    refine ⟨rfl, ?_⟩
    rw [active_submit, List.length_append]
    split
    · rename_i same
      have few := length_active_le n tag
      rw [known, ← same, named, List.length_nil] at few
      rw [← same, List.length_singleton]
      omega
    · rw [List.length_nil, Nat.add_zero]
      exact le_max_left ..

/-! ### Slots -/

def dispatchAll (n : Nomad) (builds : List Build) : Nomad := builds.foldl (fun n b => (dispatch b n).2) n

theorem length_active_dispatchAll {builds : List Build}
    (named : ∀ b ∈ builds, Platform.ofTag b.platform.tag = b.platform) (known : n.hidden tag = []) :
    (((n.dispatchAll builds).active tag).length : Int) ≤ max ((n.active tag).length : Int) (n.slots.getD tag 0) := by
  induction builds generalizing n with
  | nil => exact le_max_left ..
  | cons b rest ih =>
    obtain ⟨slots, step⟩ := length_active_dispatch (named b List.mem_cons_self) known
    have run := ih (fun b' isIn => named b' (List.mem_cons_of_mem _ isIn)) ((hidden_dispatch n b tag).trans known)
    rw [slots] at run
    exact run.trans (max_le step (le_max_right ..))

/-- A job is submitted exactly if fewer jobs are known to build for the platform than it has slots, and
otherwise nothing changes. So there are fewer jobs in progress for the platform's tag than it has
slots and hidden jobs, and if none is hidden no number of dispatches takes more than the slots. -/
theorem slots_bound_known_jobs (n : Nomad) (b : Build) (named : Platform.ofTag b.platform.tag = b.platform) :
    (∀ n', dispatch b n = (.ok (), n') ↔ n.listFault = none ∧ n.dispatchFault = none ∧
      (n.counted b.platform : Int) < n.slots.getD b.platform.tag 0 ∧ n' = n.submit b) ∧
    (∀ f n', dispatch b n = (.error f, n') → n' = n) ∧
    (∀ n', dispatch b n = (.ok (), n') →
      ((n.active b.platform.tag).length : Int) <
          n.slots.getD b.platform.tag 0 + (n.hidden b.platform.tag).length ∧
        (n'.active b.platform.tag).length = (n.active b.platform.tag).length + 1) ∧
    ∀ builds, (∀ b' ∈ builds, Platform.ofTag b'.platform.tag = b'.platform) → n.hidden b.platform.tag = [] →
      (((n.dispatchAll builds).active b.platform.tag).length : Int) ≤
        max ((n.active b.platform.tag).length : Int) (n.slots.getD b.platform.tag 0) := by
  refine ⟨fun n' => dispatch_eq_ok_iff, fun f n' => dispatch_refused, ?_, fun builds => length_active_dispatchAll⟩
  intro n' submitted
  obtain ⟨-, -, room, rfl⟩ := dispatch_eq_ok_iff.mp submitted
  have few := length_active_le n b.platform.tag
  rw [named] at few
  refine ⟨by omega, ?_⟩
  rw [active_submit, if_pos rfl, List.length_append, List.length_singleton]

def occupied (fault : Option Fault) : Nomad where
  jobs := [{ type := "batch", status := "running", metadata := .ofList [("platform", "x86_64_linux")], fault }]
  slots := .ofList [("x86_64_linux", 1)]
  callback := "http://scheduler"

/-- The only slot is taken by a job that cannot be looked up, and a second one is submitted. -/
theorem hidden_job_exceeds_slots :
    ((occupied (some (.told "boom"))).active "x86_64_linux").length = 1 ∧
      (occupied (some (.told "boom"))).slots.getD "x86_64_linux" 0 = 1 ∧
      ∃ n', dispatch ⟨.host, "hello", "r1"⟩ (occupied (some (.told "boom"))) = (.ok (), n') :=
  ⟨by decide, by decide, _, dispatch_eq_ok_iff.mpr ⟨rfl, rfl, by decide, rfl⟩⟩

theorem known_job_keeps_slot : (((occupied none).dispatchAll [⟨.host, "hello", "r1"⟩, ⟨.host, "zlib", "r1"⟩]).active
    "x86_64_linux").length ≤ 1 := by
  have bound := (slots_bound_known_jobs (occupied none) ⟨.host, "hello", "r1"⟩ (by decide)).2.2.2
    [⟨.host, "hello", "r1"⟩, ⟨.host, "zlib", "r1"⟩] (by decide) (by decide)
  have one : max (((occupied none).active "x86_64_linux").length : Int)
      ((occupied none).slots.getD "x86_64_linux" 0) = 1 := by decide
  rw [show Platform.host.tag = "x86_64_linux" by decide, one] at bound
  omega

end Taproom.Nomad
