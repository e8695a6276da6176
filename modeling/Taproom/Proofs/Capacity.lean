import Mathlib.Data.Multiset.AddSub
import Taproom.Proofs.Filling
import Taproom.Proofs.Handover
import Taproom.Proofs.Json
import Taproom.Proofs.Tap

/-!
How many builds a machine takes, and at which revision. Whatever was taken and has not ended is in
progress. All of it is for one platform and one revision, and the tap stays at that revision until
nothing is in progress any more.
-/

namespace Taproom

/-! ### Where a tap is -/

theorem during_eq_ok {α : Type} {context : String} {x : Except Fault α} {v : α}
    (ok : during context x = .ok v) : x = .ok v := by
  cases x with
  | error f => cases ok
  | ok w => exact ok

example : (during "cloning" (.ok 1)).toOption = some 1 := by decide +kernel

namespace Git

/-- What is relied on of a repository: where a checkout succeeds, the repository is at its commit, and
has the commits and names that it had. -/
def ChecksOut (path : String) (d : Disk) : Prop :=
  ∀ r hash d', Repository.open? d path = some r →
    (checkout r path (.commit hash) hash).run d = (.ok (), d') →
    Repository.open? d' path = some { r with head := .commit hash }

namespace Tap

variable {t t' : Tap} {net : Http.Transport} {rev purpose : String} {r : Repository} {d d' : Disk}

/-- A tap is at the commit that a revision names, as seen from where the tap was before. -/
def IsAt (t : Tap) (rev : String) (d : Disk) : Prop :=
  ∃ (r : Repository) (head : Head) (hash : String), Repository.open? d t.path = some { r with head } ∧
    r.resolve rev = .ok hash ∧ t.current.run d = (.ok hash, d)

theorem ready_of_bootstrap (made : (t.bootstrap net).run d = (.ok t', d')) :
    t' = { t with isReady := true } := by
  rw [bootstrap] at made
  by_cases pathless : t.path = ""
  · rw [if_pos pathless] at made
    cases made
  · rw [if_neg pathless] at made
    obtain ⟨there, d₁, -, rest⟩ := Act.run_bind_eq_ok made
    cases there with
    | true =>
      obtain ⟨old, d₂, -, rest⟩ := Act.run_bind_eq_ok rest
      cases old with
      | none => cases rest
      | some r =>
        cases rest
        rfl
    | false =>
      by_cases urlless : t.url = ""
      · simp only [urlless, Bool.false_eq_true, if_false, if_true] at rest
        cases rest
      · simp only [urlless, Bool.false_eq_true, if_false] at rest
        obtain ⟨r, d₂, -, rest⟩ := Act.run_bind_eq_ok rest
        cases rest
        rfl

theorem run_clone (ready : t.isReady = true) (d : Disk) :
    (t.clone purpose).run d = match Repository.open? d t.path with
      | some r => (.ok r, d)
      | none => (.error (.told "repository does not exist"), d) := by
  have present : (t.clone purpose).run d = (get >>= fun d : Disk => match Repository.open? d t.path with
      | some r => pure r
      | none => throw (.told "repository does not exist") : Act Repository).run d := by
    rw [clone, ready]
    rfl
  rw [present, Act.run_bind, Act.run_get]
  dsimp only
  split <;> rfl

theorem clone_eq_ok (cloned : (t.clone purpose).run d = (.ok r, d')) :
    d' = d ∧ t.isReady = true ∧ Repository.open? d t.path = some r := by
  cases ready : t.isReady with
  | false =>
    rw [clone, ready] at cloned
    cases cloned
  | true =>
    rw [run_clone ready] at cloned
    split at cloned
    · rename_i opened
      cases cloned
      exact ⟨rfl, rfl, opened⟩
    · cases cloned

theorem run_current {hash : String} (ready : t.isReady = true)
    (opened : Repository.open? d t.path = some r) (head : r.headHash? = some hash) :
    t.current.run d = (.ok hash, d) := by
  have cloned : (t.clone "").run d = (.ok r, d) := by rw [run_clone ready, opened]
  rw [current, Act.run_bind_of_ok cloned, Act.run_ofExcept, headOf, head]

theorem IsAt.congr (isAt : t.IsAt rev d) (same : Repository.open? d' t.path = Repository.open? d t.path) :
    t.IsAt rev d' := by
  obtain ⟨r, head, hash, opened, resolved, told⟩ := isAt
  obtain ⟨r', d₁, cloned, told⟩ := Act.run_bind_eq_ok told
  obtain ⟨rfl, ready, opened'⟩ := clone_eq_ok cloned
  obtain rfl := Option.some.inj (opened.symm.trans opened')
  have cloned' : (t.clone "").run d' = (.ok { r with head }, d') := by rw [run_clone ready, same, opened]
  rw [Act.run_ofExcept] at told
  refine ⟨r, head, hash, same.trans opened, resolved, ?_⟩
  rw [current, Act.run_bind_of_ok cloned', Act.run_ofExcept, (Prod.mk.inj told).1]

theorem isAt_of_moveTo {changed : List String} (checksOut : ChecksOut t.path d)
    (moved : (t.moveTo rev).run d = (.ok changed, d')) : t.IsAt rev d' := by
  obtain ⟨r, d₁, cloned, rest⟩ := Act.run_bind_eq_ok moved
  obtain ⟨rfl, ready, opened⟩ := clone_eq_ok cloned
  obtain ⟨old, d₂, head, rest⟩ := Act.run_bind_eq_ok rest
  obtain ⟨new, d₃, resolved, rest⟩ := Act.run_bind_eq_ok rest
  rw [Act.run_ofExcept] at head resolved
  obtain ⟨headed, rfl⟩ := Prod.mk.inj head
  obtain ⟨named, rfl⟩ := Prod.mk.inj resolved
  have meant : r.resolve rev = .ok new := during_eq_ok named
  have told : r.headHash? = some old := by
    have here := during_eq_ok headed
    rw [headOf] at here
    split at here
    · rename_i told
      exact told.trans (congrArg some (Except.ok.inj here))
    · cases here
  by_cases same : old = new
  · rw [if_pos same] at rest
    cases rest
    subst same
    exact ⟨r, r.head, old, opened, meant, run_current ready opened told⟩
  · rw [if_neg same] at rest
    obtain ⟨⟨⟩, d₂, out, rest⟩ := Act.run_bind_eq_ok rest
    cases rest
    rw [Act.run_during] at out
    obtain ⟨done, rfl⟩ := Prod.mk.inj out
    have whole := checksOut r new _ opened (Prod.ext (during_eq_ok done) rfl)
    exact ⟨r, .commit new, new, whole, meant, run_current ready whole rfl⟩

end Tap

end Git

namespace Local

open Git (Repository)

namespace Site

def clone (s : Site) : Git.Tap := { path := s.tapPath, url := s.tapUrl, isReady := true }

def update (s : Site) : Act Git.Tap := do
  let t ← ({ path := s.tapPath, url := s.tapUrl } : Git.Tap).bootstrap s.client.net
  t.fetch s.client.net
  return t

theorem moveTo_eq (s : Site) (rev : String) :
    s.moveTo rev = s.update >>= fun t => t.moveTo rev >>= fun _ => pure () := by
  simp only [moveTo, update, bind_assoc, pure_bind]

theorem isAt_of_moveTo {s : Site} {rev : String} {d d' : Disk}
    (checksOut : ∀ t d₁, s.update.run d = (.ok t, d₁) → Git.ChecksOut s.tapPath d₁)
    (moved : (s.moveTo rev).run d = (.ok (), d')) : s.clone.IsAt rev d' := by
  rw [moveTo_eq] at moved
  obtain ⟨t, d₁, updated, rest⟩ := Act.run_bind_eq_ok moved
  obtain ⟨changed, d₂, moved, rest⟩ := Act.run_bind_eq_ok rest
  cases rest
  obtain rfl : t = s.clone := by
    obtain ⟨t', d₃, made, rest⟩ := Act.run_bind_eq_ok updated
    obtain ⟨⟨⟩, d₄, -, rest⟩ := Act.run_bind_eq_ok rest
    cases rest
    exact Git.Tap.ready_of_bootstrap made
  exact Git.Tap.isAt_of_moveTo (checksOut _ d₁ updated) moved

end Site

/-! ### Runs -/

inductive Event where
  | slots (given : Dict String Int)
  | taken (b : Build)
  | refused (b : Build)
  | ended (b : Build)

def taken : List Event → Multiset Build
  | [] => 0
  | .taken b :: h => b ::ₘ taken h
  | _ :: h => taken h

def ended : List Event → Multiset Build
  | [] => 0
  | .ended b :: h => b ::ₘ ended h
  | _ :: h => ended h

def slotsFor (tag : String) : List Event → Int
  | [] => 1
  | .slots given :: h => (given.get? tag).getD (slotsFor tag h)
  | _ :: h => slotsFor tag h

/-- What happened on a machine since it was set up, the latest first. Builds at work change the disk as
they like, but for the tap. A build ends once for each time that it was taken. -/
inductive Ran (s : Site) : List Event → Local × Disk → Prop
  | start (d : Disk) : Ran s [] ({}, d)
  | slots {h : List Event} {st : Local × Disk} (before : Ran s h st) (given : Dict String Int) :
      Ran s (.slots given :: h) (setSlots s.tag given st.1, st.2)
  | take {h : List Event} {st st' : Local × Disk} {b : Build} (before : Ran s h st)
      (checksOut : mustMove s st.1 b = true → ∀ t d, s.update.run st.2 = (.ok t, d) → Git.ChecksOut s.tapPath d)
      (ran : (provider s).dispatch b st = (.ok (), st')) : Ran s (.taken b :: h) st'
  | refuse {h : List Event} {st st' : Local × Disk} {b : Build} {f : Fault} (before : Ran s h st)
      (ran : (provider s).dispatch b st = (.error f, st')) : Ran s (.refused b :: h) st'
  | work {h : List Event} {st : Local × Disk} {d : Disk} (before : Ran s h st)
      (apart : Repository.open? d s.tapPath = Repository.open? st.2 s.tapPath) : Ran s h (st.1, d)
  | finish {h : List Event} {st : Local × Disk} {b : Build} (before : Ran s h st)
      (running : (ended h).count b < (taken h).count b) : Ran s (.ended b :: h) (finish b st.1, st.2)

variable {s : Site} {b : Build} {h : List Event} {st st' : Local × Disk}

/-- What a history tells of a machine. -/
structure Kept (s : Site) (h : List Event) (st : Local × Disk) : Prop where
  slots : st.1.slots = slotsFor s.tag h
  ongoing : (st.1.ongoing : Multiset Build) + ended h = taken h
  platform : ∀ b ∈ st.1.ongoing, b.platform = s.builder.platform
  rev : ∀ b ∈ st.1.ongoing, ∀ b' ∈ st.1.ongoing, b.rev = b'.rev
  tap : s.tapUrl ≠ "" → ∀ b ∈ st.1.ongoing, b.rev ≠ "" → s.clone.IsAt b.rev st.2

namespace Kept

theorem take (kept : Kept s h st)
    (checksOut : mustMove s st.1 b = true → ∀ t d, s.update.run st.2 = (.ok t, d) → Git.ChecksOut s.tapPath d)
    (ran : (provider s).dispatch b st = (.ok (), st')) : Kept s (.taken b :: h) st' := by
  obtain ⟨room, now, moved⟩ := take_cases ran
  simp only [admits, Bool.and_eq_true, decide_eq_true_eq, List.all_eq_true] at room
  obtain ⟨⟨platform, -⟩, revs⟩ := room
  have member : ∀ c, c ∈ st'.1.ongoing ↔ c ∈ st.1.ongoing ∨ c = b := by simp [now]
  refine ⟨?_, ?_, ?_, ?_, ?_⟩
  · rw [now]
    exact kept.slots
  · have more : (st'.1.ongoing : Multiset Build) = b ::ₘ st.1.ongoing := by
      rw [now]
      exact Multiset.coe_eq_coe.mpr (List.perm_append_singleton b _)
    rw [more, Multiset.cons_add]
    exact congrArg (b ::ₘ ·) kept.ongoing
  · intro c inside
    rcases (member c).mp inside with old | rfl
    · exact kept.platform c old
    · exact platform
  · have same : ∀ c ∈ st'.1.ongoing, c.rev = b.rev := by
      intro c inside
      rcases (member c).mp inside with old | rfl
      · exact revs c old
      · rfl
    exact fun c inside c' inside' => (same c inside).trans (same c' inside').symm
  · intro url c inside given
    by_cases idle : st.1.ongoing = []
    · -- The machine was idle, and the tap was moved for this build.
      obtain rfl : c = b := by simpa [idle] using (member c).mp inside
      have must : mustMove s st.1 c = true := by simp [mustMove, idle, url, given]
      rw [if_pos must] at moved
      exact Site.isAt_of_moveTo (checksOut must) moved
    · -- The tap is where the builds before this one need it.
      have stays : mustMove s st.1 b = false := by simp [mustMove, idle]
      obtain ⟨o, before⟩ := List.exists_mem_of_ne_nil _ idle
      have same : c.rev = o.rev := by
        rcases (member c).mp inside with old | rfl
        · exact kept.rev c old o before
        · exact (revs o before).symm
      rw [stays, if_neg (by decide)] at moved
      rw [moved, same]
      exact kept.tap url o before (same ▸ given)

theorem refuse {f : Fault} (kept : Kept s h st)
    (ran : (provider s).dispatch b st = (.error f, st')) : Kept s (.refused b :: h) st' := by
  obtain ⟨same, still⟩ := refuse_cases ran
  refine ⟨?_, ?_, ?_, ?_, ?_⟩ <;> rw [same]
  · exact kept.slots
  · exact kept.ongoing
  · exact kept.platform
  · exact kept.rev
  · intro url c inside given
    rw [still (List.ne_nil_of_mem inside)]
    exact kept.tap url c inside given

theorem finish (kept : Kept s h st) (running : (ended h).count b < (taken h).count b) :
    Kept s (.ended b :: h) (Local.finish b st.1, st.2) := by
  have inside : b ∈ st.1.ongoing := by
    rw [← kept.ongoing, Multiset.count_add] at running
    exact Multiset.mem_coe.mp (Multiset.count_pos.mp (by omega))
  have fewer : ∀ c ∈ st.1.ongoing.erase b, c ∈ st.1.ongoing := fun c => List.mem_of_mem_erase
  refine ⟨kept.slots, ?_, fun c rest => kept.platform c (fewer c rest),
    fun c rest c' rest' => kept.rev c (fewer c rest) c' (fewer c' rest'),
    fun url c rest => kept.tap url c (fewer c rest)⟩
  have whole : b ::ₘ (st.1.ongoing.erase b : Multiset Build) = st.1.ongoing := by
    rw [← Multiset.coe_erase]
    exact Multiset.cons_erase inside
  calc (st.1.ongoing.erase b : Multiset Build) + b ::ₘ ended h
    _ = b ::ₘ (st.1.ongoing.erase b : Multiset Build) + ended h := by
      rw [Multiset.add_cons, Multiset.cons_add]
    _ = taken h := by rw [whole, kept.ongoing]

end Kept

theorem Ran.kept (ran : Ran s h st) : Kept s h st := by
  induction ran with
  | start d => exact ⟨rfl, rfl, by simp, by simp, by simp⟩
  | slots before given ih =>
    refine ⟨?_, ih.ongoing, ih.platform, ih.rev, ih.tap⟩
    rw [setSlots, slotsFor, ih.slots]
  | take _ checksOut ran ih => exact ih.take checksOut ran
  | refuse _ ran ih => exact ih.refuse ran
  | work _ apart ih =>
    exact ⟨ih.slots, ih.ongoing, ih.platform, ih.rev, fun url b inside given =>
      (ih.tap url b inside given).congr apart⟩
  | finish _ running ih => exact ih.finish running

deriving instance DecidableEq for Git.Blob, Git.Commit, Git.Repository

def twoCommits (head : String) : Repository where
  head := .commit head
  commits := .ofList [("c1", { message := "first" }), ("c2", { message := "second" })]
  origin := "file:///tap"

def cloned (head : String) : Disk where
  tree := .ofList [(["tap"], .dir 0o755), (["tap", ".git"], .dir 0o755),
    (["tap", ".git", "repository.json"], .file 0)]
  bodies := .ofList [(0, ⟨(twoCommits head).toJson.render.toUTF8, 0o644⟩)]
  nextBody := 1

def piece (rev : String) : Build := ⟨.host, "zlib", rev⟩

end Local

end Taproom
