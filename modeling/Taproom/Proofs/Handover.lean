import Mathlib.Data.List.Nodup
import Mathlib.Logic.Relation
import Taproom.Proofs.Action
import Taproom.Proofs.Dict
import Taproom.Scheduler.Local

/-!
Handing builds over. A scheduler hands over what is in its queue while any number of updates are on
their way to a new one. What it hands over does not run already, unless a build was handed over
between the moment when an update listed the builds in progress and the moment when the queue that
it planned with them was taken over.
-/

namespace Taproom

open Relation (ReflTransGen)

/-! ### What a manager asks for -/

namespace Dispatchable

def Distinct (d : Dispatchable) : Prop := ∀ names ∈ d.packages.values, names.Nodup

theorem latest_sublist (l : List (Platform × List String)) : (latest l).Sublist l := by
  induction l with
  | nil => exact .slnil
  | cons e rest ih =>
    rw [latest]
    split
    · exact ih.cons e
    · exact ih.cons_cons e

theorem latest_distinct (l : List (Platform × List String)) :
    (latest l).Pairwise fun a b => a.1 ≠ b.1 := by
  induction l with
  | nil => exact .nil
  | cons e rest ih =>
    rw [latest]
    split
    · exact ih
    · rename_i alone
      refine List.pairwise_cons.mpr ⟨?_, ih⟩
      intro later member same
      apply alone
      simp only [List.any_eq_true, decide_eq_true_eq]
      exact ⟨later, (latest_sublist rest).subset member, same.symm⟩

theorem Distinct.nodup {d : Dispatchable} (distinct : d.Distinct) {e : Platform × List String}
    (member : e ∈ d.byPlatform) : e.2.Nodup := by
  obtain ⟨⟨tag, names⟩, listed, rfl⟩ := List.mem_map.mp ((latest_sublist _).subset member)
  exact distinct names (List.mem_map.mpr ⟨(tag, names), listed, rfl⟩)

end Dispatchable

namespace Scheduler

variable {d : Dispatchable} {running : List Build}

theorem nodup_asked (distinct : d.Distinct) : (asked d).Nodup := by
  rw [asked, List.nodup_flatMap]
  constructor
  · intro e member
    refine (distinct.nodup member).map ?_
    intro n n' same
    exact congrArg Build.package same
  · refine (Dispatchable.latest_distinct _).imp ?_
    intro e e' apart b here there
    obtain ⟨n, -, rfl⟩ := List.mem_map.mp here
    obtain ⟨n', -, same⟩ := List.mem_map.mp there
    exact apart (congrArg Build.platform same).symm

theorem nodup_plan (distinct : d.Distinct) (running : List Build) : (plan d running).Nodup :=
  (List.mergeSort_perm _ _).nodup_iff.mpr ((nodup_asked distinct).filter _)

theorem mem_plan {b : Build} : b ∈ plan d running ↔ b ∈ asked d ∧ b ∉ running := by
  rw [plan, (List.mergeSort_perm _ _).mem_iff, List.mem_filter]
  simp

end Scheduler

/-! ### Providers -/

/-- What a scheduler relies on: a provider that takes a build has it in progress from then on, one
that refuses a build goes on with what it has, and everything in progress is listed. -/
structure Provider.Faithful {σ : Type} (p : Provider σ) (active : σ → List Build) : Prop where
  taken : ∀ {b : Build} {st st' : σ}, p.dispatch b st = (.ok (), st') → active st' = active st ++ [b]
  refused : ∀ {b : Build} {st st' : σ} {f : Fault}, p.dispatch b st = (.error f, st') →
    active st' = active st
  listed : ∀ {st : σ} {builds : List Build}, p.running st = .ok builds →
    ∀ b ∈ active st, b ∈ builds

namespace Local

variable {s : Site} {b : Build} {st st' : Local × Disk}

theorem run_dispatch (s : Site) (b : Build) (l : Local) (d : Disk) :
    (dispatch s b l).run d =
      if admits s.builder.platform l b then
        if mustMove s l b then
          match (s.moveTo b.rev).run d with
          | (.ok _, d') => (.ok { l with ongoing := l.ongoing ++ [b] }, d')
          | (.error f, d') => (.error f, d')
        else (.ok { l with ongoing := l.ongoing ++ [b] }, d)
      else (.error .noCapacity, d) := by
  rw [dispatch]
  cases admits s.builder.platform l b with
  | false => rfl
  | true =>
    cases mustMove s l b with
    | false => rfl
    | true =>
      simp only [Bool.not_true, Bool.false_eq_true, if_false, if_true]
      rw [Act.run_bind]
      rcases (s.moveTo b.rev).run d with ⟨f | u, d'⟩ <;> rfl

theorem take_cases (ran : (provider s).dispatch b st = (.ok (), st')) :
    admits s.builder.platform st.1 b = true ∧ st'.1 = { st.1 with ongoing := st.1.ongoing ++ [b] } ∧
      if mustMove s st.1 b then (s.moveTo b.rev).run st.2 = (.ok (), st'.2) else st'.2 = st.2 := by
  simp only [provider, run_dispatch] at ran
  cases room : admits s.builder.platform st.1 b with
  | false => simp [room] at ran
  | true =>
    cases must : mustMove s st.1 b with
    | false =>
      simp only [room, must, if_true, Bool.false_eq_true, if_false] at ran
      cases ran
      exact ⟨rfl, rfl, rfl⟩
    | true =>
      rcases moved : (s.moveTo b.rev).run st.2 with ⟨f | u, d⟩
      · simp [room, must, moved] at ran
      · simp only [room, must, moved, if_true] at ran
        cases ran
        exact ⟨rfl, rfl, rfl⟩

theorem refuse_cases {f : Fault} (ran : (provider s).dispatch b st = (.error f, st')) :
    st'.1 = st.1 ∧ (st.1.ongoing ≠ [] → st'.2 = st.2) := by
  simp only [provider, run_dispatch] at ran
  cases room : admits s.builder.platform st.1 b with
  | false =>
    simp only [room, Bool.false_eq_true, if_false] at ran
    cases ran
    exact ⟨rfl, fun _ => rfl⟩
  | true =>
    cases must : mustMove s st.1 b with
    | false => simp [room, must] at ran
    | true =>
      have idle : st.1.ongoing = [] := by
        simp only [mustMove, Bool.and_eq_true, List.isEmpty_iff] at must
        exact must.1.1
      rcases moved : (s.moveTo b.rev).run st.2 with ⟨f | u, d⟩
      · simp only [room, must, moved, if_true] at ran
        cases ran
        exact ⟨rfl, fun busy => absurd idle busy⟩
      · simp [room, must, moved] at ran

def inProgress (st : Local × Disk) : List Build := st.1.ongoing

theorem provider_faithful (s : Site) : (provider s).Faithful inProgress where
  taken ran := by rw [inProgress, (take_cases ran).2.1, inProgress]
  refused ran := by rw [inProgress, (refuse_cases ran).1, inProgress]
  listed {st builds} listed b active := by
    cases listed
    exact active

theorem idle_of_one_slot (one : st.1.slots ≤ 1) (taken : (provider s).dispatch b st = (.ok (), st')) :
    inProgress st = [] := by
  have room := (take_cases taken).1
  simp only [admits, Bool.and_eq_true, decide_eq_true_eq] at room
  have short : st.1.ongoing.length = 0 := by omega
  exact List.length_eq_zero_iff.mp short

end Local

/-! ### Interleavings -/

namespace Scheduler

/-- How far an update has come: it knows what the manager asks for, and then what is in progress. -/
inductive Stage where
  | asked (d : Dispatchable)
  | listed (d : Dispatchable) (running : List Build)

def Stage.planned : Stage → List Build
  | .asked _ => []
  | .listed d running => plan d running

/-- A scheduler and a provider, with the updates that are on their way. -/
structure Moment (σ : Type) where
  scheduler : Scheduler
  provider : σ
  updates : List Stage := []

variable {σ : Type} {orderly : Prop} {p : Provider σ} {active : σ → List Build} {m m' : Moment σ}
  {s s' : Scheduler} {st : σ} {builds : List Build} {names rest : List String}
  {b : Build}

def Hands (p : Provider σ) (m : Moment σ) (b : Build) : Prop :=
  ∃ rest st, m.scheduler.queue = b :: rest ∧ p.dispatch b m.provider = (.ok (), st)

/-- What can happen next. Any number of updates go on one by one, in any order, while the scheduler
sends what is in its queue and builds come to their end. In an orderly run no build is handed over
while an update is on its way that planned the same build. -/
inductive Step (orderly : Prop) (p : Provider σ) (active : σ → List Build) :
    Moment σ → Moment σ → Prop where
  | send {m : Moment σ} {result : Except Fault Unit} {scheduler : Scheduler} {provider : σ}
      (sent : m.scheduler.send p m.provider = (result, scheduler, provider))
      (calm : orderly → ∀ b, Hands p m b → ∀ u ∈ m.updates, b ∉ u.planned) :
      Step orderly p active m { m with scheduler, provider }
  | ask {m : Moment σ} {d : Dispatchable} (distinct : d.Distinct) :
      Step orderly p active m { m with updates := .asked d :: m.updates }
  | list {m : Moment σ} {d : Dispatchable} {before after : List Stage} {running : List Build}
      (here : m.updates = before ++ .asked d :: after) (listed : p.running m.provider = .ok running) :
      Step orderly p active m { m with updates := before ++ .listed d running :: after }
  | adopt {m : Moment σ} {d : Dispatchable} {before after : List Stage} {running : List Build}
      (here : m.updates = before ++ .listed d running :: after) :
      Step orderly p active m
        { m with scheduler := m.scheduler.adopt d (plan d running), updates := before ++ after }
  | giveUp {m : Moment σ} {u : Stage} {before after : List Stage}
      (here : m.updates = before ++ u :: after) :
      Step orderly p active m { m with updates := before ++ after }
  | finish {m : Moment σ} {b : Build} {provider : σ}
      (ended : active provider = (active m.provider).erase b) :
      Step orderly p active m { m with provider }

theorem list_first {d : Dispatchable} {running : List Build} (updates : List Stage)
    (listed : p.running st = .ok running) :
    Step orderly p active ⟨s, st, .asked d :: updates⟩ ⟨s, st, .listed d running :: updates⟩ := by
  have here : (⟨s, st, .asked d :: updates⟩ : Moment σ).updates = [] ++ .asked d :: updates := rfl
  exact .list here listed

theorem adopt_first (s : Scheduler) (st : σ) (d : Dispatchable) (running : List Build)
    (updates : List Stage) :
    Step orderly p active ⟨s, st, .listed d running :: updates⟩
      ⟨s.adopt d (plan d running), st, updates⟩ := by
  have here : (⟨s, st, .listed d running :: updates⟩ : Moment σ).updates =
      [] ++ .listed d running :: updates := rfl
  exact .adopt here

theorem reconstruct_steps {c : Manager.Client} (orderly : Prop) {updates : List Stage}
    (distinct : ∀ d, c.dispatchable = .ok d → d.Distinct) (done : s.reconstruct c p st = .ok s') :
    ReflTransGen (Step orderly p active) ⟨s, st, updates⟩ ⟨s', st, updates⟩ := by
  rw [reconstruct] at done
  cases answer : c.dispatchable with
  | error f =>
    rw [answer] at done
    cases done
  | ok d =>
    cases listing : p.running st with
    | error f =>
      rw [answer, listing] at done
      cases done
    | ok running =>
      rw [answer, listing] at done
      cases done
      have asked : Step orderly p active ⟨s, st, updates⟩ ⟨s, st, .asked d :: updates⟩ :=
        .ask (distinct d answer)
      exact ((ReflTransGen.single asked).tail (list_first updates listing)).tail
        (adopt_first s st d running updates)

theorem send_cases (faithful : p.Faithful active) {result : Except Fault Unit} {st' : σ}
    (sent : m.scheduler.send p m.provider = (result, s', st')) :
    s'.queue = m.scheduler.queue ∧ active st' = active m.provider ∨
      ∃ b, Hands p m b ∧ m.scheduler.queue = b :: s'.queue ∧
        active st' = active m.provider ++ [b] := by
  rw [send] at sent
  split at sent
  · rename_i empty
    cases sent
    exact Or.inl ⟨rfl, rfl⟩
  · rename_i b rest queue
    split at sent
    · rename_i st taken
      cases sent
      exact Or.inr ⟨b, ⟨rest, _, queue, taken⟩, queue, faithful.taken taken⟩
    · rename_i f st refused
      cases sent
      exact Or.inl ⟨rfl, faithful.refused refused⟩

/-- Builds that are all different and of which none is in progress. -/
structure Fresh (builds busy : List Build) : Prop where
  nodup : builds.Nodup
  idle : ∀ b ∈ builds, b ∉ busy

theorem Fresh.mono {busy busy' : List Build} (fresh : Fresh builds busy)
    (fewer : ∀ b ∈ busy', b ∈ busy) : Fresh builds busy' :=
  ⟨fresh.nodup, fun b queued running => fresh.idle b queued (fewer b running)⟩

theorem Fresh.snoc {busy : List Build} (fresh : Fresh builds busy) (other : b ∉ builds) :
    Fresh builds (busy ++ [b]) := by
  refine ⟨fresh.nodup, fun c queued running => ?_⟩
  rcases List.mem_append.mp running with running | last
  · exact fresh.idle c queued running
  · exact other (List.mem_singleton.mp last ▸ queued)

/-- Whatever waits, in the queue or in a plan for it, is not in progress. -/
structure Apart (active : σ → List Build) (m : Moment σ) : Prop where
  queue : Fresh m.scheduler.queue (active m.provider)
  planned : ∀ u ∈ m.updates, Fresh u.planned (active m.provider)
  distinct : ∀ d, .asked d ∈ m.updates → d.Distinct

theorem mem_of_others {u u' : Stage} {before after : List Stage}
    (here : m.updates = before ++ u :: after) (member : u' ∈ before ++ after) : u' ∈ m.updates := by
  rw [here]
  exact List.perm_middle.mem_iff.mpr (List.mem_cons_of_mem u member)

/-- Every step of an orderly run keeps what waits apart from what is in progress. -/
theorem apart_step (faithful : p.Faithful active) (apart : Apart active m)
    (step : Step True p active m m') : Apart active m' := by
  cases step with
  | send sent calm =>
    rcases send_cases faithful sent with ⟨queue, same⟩ | ⟨b, hands, queue, more⟩
    · refine ⟨?_, ?_, apart.distinct⟩
      · rw [queue, same]
        exact apart.queue
      · rw [same]
        exact apart.planned
    · have fresh := apart.queue
      rw [queue] at fresh
      have rest := List.nodup_cons.mp fresh.nodup
      refine ⟨?_, ?_, apart.distinct⟩
      · rw [more]
        exact Fresh.snoc ⟨rest.2, fun c later => fresh.idle c (List.mem_cons_of_mem b later)⟩ rest.1
      · intro u member
        rw [more]
        exact (apart.planned u member).snoc (calm trivial b hands u member)
  | ask distinct =>
    refine ⟨apart.queue, ?_, ?_⟩
    · intro u member
      rcases List.mem_cons.mp member with rfl | member
      · exact ⟨List.nodup_nil, by simp [Stage.planned]⟩
      · exact apart.planned u member
    · intro d' member
      rcases List.mem_cons.mp member with same | member
      · cases same
        exact distinct
      · exact apart.distinct d' member
  | @list d before after running here listed =>
    have distinct := apart.distinct d (by rw [here]; simp)
    -- What is planned now leaves out all that is listed, which is all that is in progress.
    have fresh : Fresh (plan d running) (active m.provider) :=
      ⟨nodup_plan distinct running, fun b planned busy =>
        (mem_plan.mp planned).2 (faithful.listed listed b busy)⟩
    refine ⟨apart.queue, ?_, ?_⟩
    · intro u member
      rcases List.perm_middle.mem_iff.mp member with _ | ⟨_, member⟩
      · exact fresh
      · exact apart.planned u (mem_of_others here member)
    · intro d' member
      rcases List.mem_cons.mp (List.perm_middle.mem_iff.mp member) with same | member
      · cases same
      · exact apart.distinct d' (mem_of_others here member)
  | @adopt d before after running here =>
    exact ⟨apart.planned (.listed d running) (by rw [here]; simp),
      fun u member => apart.planned u (mem_of_others here member),
      fun d' member => apart.distinct d' (mem_of_others here member)⟩
  | @giveUp u before after here =>
    exact ⟨apart.queue, fun u member => apart.planned u (mem_of_others here member),
      fun d' member => apart.distinct d' (mem_of_others here member)⟩
  | @finish b provider ended =>
    have fewer : ∀ c ∈ (active m.provider).erase b, c ∈ active m.provider :=
      fun c => List.mem_of_mem_erase
    refine ⟨?_, ?_, apart.distinct⟩
    · rw [ended]
      exact apart.queue.mono fewer
    · intro u member
      rw [ended]
      exact (apart.planned u member).mono fewer

theorem apart_run (faithful : p.Faithful active) (apart : Apart active m)
    (run : ReflTransGen (Step True p active) m m') : Apart active m' := by
  induction run with
  | refl => exact apart
  | tail _ step ih => exact apart_step faithful ih step

/-- No build is handed over while it is in progress. This holds of every orderly run, whatever the
provider has in progress at the start. -/
theorem handed_over_once (faithful : p.Faithful active) (st : σ)
    (run : ReflTransGen (Step True p active) ⟨{}, st, []⟩ m) (hands : Hands p m b) :
    b ∉ active m.provider := by
  have start : Apart active (⟨{}, st, []⟩ : Moment σ) :=
    ⟨⟨List.nodup_nil, by simp⟩, by simp, by simp⟩
  obtain ⟨rest, _, queue, -⟩ := hands
  have fresh := (apart_run faithful start run).queue
  rw [queue] at fresh
  exact fresh.idle b List.mem_cons_self

/-! ### A machine with two slots -/

def bench : Local.Site where
  tapPath := "/tap"
  builder := { cellar := "/cellar", fetcher := ⟨"/cache", Http.unreachable, true⟩, platform := .host,
               runner := fun _ d => ({}, d), temp := "/tmp", now := "" }
  client := ⟨Http.unreachable, ""⟩
  outputDir := "/out"
  repo := "core"

def demand (names : List String) : Dispatchable := ⟨.ofList [("x86_64_linux", names)], "r1"⟩

def build (name : String) : Build := ⟨.host, name, "r1"⟩

def busy (names : List String) : Local × Disk := (⟨2, names.map build⟩, {})

def waiting (names : List String) : Scheduler := ⟨names.map build, [.host]⟩

theorem demand_distinct (nodup : names.Nodup) : (demand names).Distinct := by
  intro listed member
  have only : (demand names).packages.values = [names] := rfl
  rw [only, List.mem_singleton] at member
  exact member ▸ nodup

theorem plan_demand : plan (demand ["gettext", "zlib"]) [] = [build "gettext", build "zlib"] ∧
    plan (demand ["gettext", "zlib"]) [build "gettext"] = [build "zlib"] := by
  have all : (asked (demand ["gettext", "zlib"])).filter (fun b => !([] : List Build).contains b) =
      [build "gettext", build "zlib"] := by decide
  have rest : (asked (demand ["gettext", "zlib"])).filter (fun b => !([build "gettext"].contains b)) =
      [build "zlib"] := by decide
  constructor
  · rw [plan, all]
    exact List.mergeSort_of_pairwise (by decide)
  · rw [plan, rest]
    exact List.mergeSort_of_pairwise (List.pairwise_singleton ..)

theorem bench_takes (few : names.length < 2) (name : String) :
    (Local.provider bench).dispatch (build name) (busy names) = (.ok (), busy (names ++ [name])) := by
  have room : Local.admits bench.builder.platform (busy names).1 (build name) = true := by
    simp only [Local.admits, bench, busy, build, List.length_map, Bool.and_eq_true, decide_eq_true_eq,
      List.all_map, List.all_eq_true]
    exact ⟨⟨trivial, by omega⟩, fun _ _ => rfl⟩
  have stays : Local.mustMove bench (busy names).1 (build name) = false := by
    simp [Local.mustMove, bench]
  have taken : (Local.dispatch bench (build name) (busy names).1).run (busy names).2 =
      (.ok (busy (names ++ [name])).1, (busy (names ++ [name])).2) := by
    rw [Local.dispatch, room, stays, busy, busy, List.map_append]
    rfl
  simp only [Local.provider, taken]

theorem bench_hands (few : names.length < 2) (name : String) (updates : List Stage) :
    Hands (Local.provider bench) ⟨waiting (name :: rest), busy names, updates⟩ (build name) :=
  ⟨rest.map build, _, rfl, bench_takes few name⟩

theorem bench_sends (few : names.length < 2) (name : String) :
    (waiting (name :: rest)).send (Local.provider bench) (busy names) =
      (.ok (), waiting rest, busy (names ++ [name])) := by
  rw [send, waiting, List.map_cons]
  dsimp only
  rw [bench_takes few name]
  rfl

theorem bench_lists (orderly : Prop) (scheduler : Scheduler) (names : List String) :
    ReflTransGen (Step orderly (Local.provider bench) Local.inProgress)
      ⟨scheduler, busy names, []⟩
      ⟨scheduler, busy names, [.listed (demand ["gettext", "zlib"]) (names.map build)]⟩ := by
  have asked : Step orderly (Local.provider bench) Local.inProgress ⟨scheduler, busy names, []⟩
      ⟨scheduler, busy names, [.asked (demand ["gettext", "zlib"])]⟩ :=
    .ask (demand_distinct (by decide))
  exact (ReflTransGen.single asked).tail (list_first [] rfl)

theorem bench_adopts (orderly : Prop) (scheduler : Scheduler) (names running planned : List String)
    (known : scheduler.platforms = [] ∨ scheduler.platforms = [.host])
    (plans : plan (demand ["gettext", "zlib"]) (running.map build) = planned.map build) :
    Step orderly (Local.provider bench) Local.inProgress
      ⟨scheduler, busy names, [.listed (demand ["gettext", "zlib"]) (running.map build)]⟩
      ⟨waiting planned, busy names, []⟩ := by
  have adopted : scheduler.adopt (demand ["gettext", "zlib"])
      (plan (demand ["gettext", "zlib"]) (running.map build)) = waiting planned := by
    rw [plans, adopt, waiting]
    rcases known with known | known
    · rw [known]
      rfl
    · rw [known]
      rfl
  rw [← adopted]
  exact adopt_first scheduler _ _ _ []

theorem bench_starts (orderly : Prop) :
    ReflTransGen (Step orderly (Local.provider bench) Local.inProgress) ⟨{}, busy [], []⟩
      ⟨waiting ["gettext", "zlib"], busy [], []⟩ :=
  (bench_lists orderly {} []).tail
    (bench_adopts orderly {} [] [] ["gettext", "zlib"] (Or.inl rfl) plan_demand.1)

/-- The first build is handed over before the next update asks. -/
theorem bench_handed_over_once : ∃ m,
    ReflTransGen (Step True (Local.provider bench) Local.inProgress) ⟨{}, busy [], []⟩ m ∧
      Hands (Local.provider bench) m (build "zlib") ∧
      Local.inProgress m.provider = [build "gettext"] ∧ build "zlib" ∉ Local.inProgress m.provider := by
  have sent : Step True (Local.provider bench) Local.inProgress
      ⟨waiting ["gettext", "zlib"], busy [], []⟩ ⟨waiting ["zlib"], busy ["gettext"], []⟩ :=
    .send (bench_sends (by decide) "gettext") (by simp)
  have run := (((bench_starts True).tail sent).trans (bench_lists True _ _)).tail
    (bench_adopts True (waiting ["zlib"]) ["gettext"] ["gettext"] ["zlib"] (Or.inr rfl) plan_demand.2)
  have hands : Hands (Local.provider bench) ⟨waiting ["zlib"], busy ["gettext"], []⟩ (build "zlib") :=
    bench_hands (by decide) "zlib" []
  exact ⟨_, run, hands, rfl, handed_over_once (Local.provider_faithful bench) _ run hands⟩

/-- The first build is handed over while an update is on its way that found the machine idle. Once
the queue of that update is taken over, the build is handed over again while it is in progress. -/
theorem overtaken_update_hands_twice : ∃ m,
    ReflTransGen (Step False (Local.provider bench) Local.inProgress) ⟨{}, busy [], []⟩ m ∧
      Hands (Local.provider bench) m (build "gettext") ∧
      build "gettext" ∈ Local.inProgress m.provider := by
  have sent : Step False (Local.provider bench) Local.inProgress
      ⟨waiting ["gettext", "zlib"], busy [], [.listed (demand ["gettext", "zlib"]) []]⟩
      ⟨waiting ["zlib"], busy ["gettext"], [.listed (demand ["gettext", "zlib"]) []]⟩ :=
    .send (bench_sends (by decide) "gettext") False.elim
  have run := (((bench_starts False).trans (bench_lists False _ [])).tail sent).tail
    (bench_adopts False (waiting ["zlib"]) ["gettext"] [] ["gettext", "zlib"] (Or.inr rfl)
      plan_demand.1)
  exact ⟨_, run, bench_hands (by decide) "gettext" [], by simp [Local.inProgress, busy]⟩

end Scheduler

end Taproom
