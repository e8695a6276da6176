import Taproom.Proofs.Handover

/-!
The queue of a scheduler. It is made of what the manager asks for without what is in progress, in the
order of platform tags and packages, and it is made anew as a whole or not at all.
-/

namespace Taproom

namespace Dispatchable

/-- The tags stand for platforms that are told apart by their tags. -/
def TagsApart (d : Dispatchable) : Prop := (d.packages.keys.map fun t => (Platform.ofTag t).tag).Nodup

theorem latest_of_distinct {l : List (Platform × List String)} (distinct : l.Pairwise fun a b => a.1 ≠ b.1) :
    latest l = l := by
  induction distinct with
  | nil => rfl
  | @cons e rest apart _ ih =>
    have alone : ¬ rest.any (fun later => decide (later.1 = e.1)) = true := by
      simp only [List.any_eq_true, decide_eq_true_eq]
      rintro ⟨later, member, same⟩
      exact apart later member same.symm
    rw [latest, if_neg alone, ih]

variable {d : Dispatchable}

theorem TagsApart.byPlatform (tags : d.TagsApart) :
    d.byPlatform = d.packages.toList.map fun (tag, names) => (Platform.ofTag tag, names) := by
  refine latest_of_distinct ?_
  rw [List.pairwise_map]
  rw [TagsApart, Dict.keys, List.map_map, List.Nodup, List.pairwise_map] at tags
  exact tags.imp fun differ same => differ (congrArg Platform.tag same)

theorem TagsApart.mem_byPlatform (tags : d.TagsApart) {p : Platform} {names : List String} :
    (p, names) ∈ d.byPlatform ↔ ∃ tag, d.packages.get? tag = some names ∧ Platform.ofTag tag = p := by
  rw [tags.byPlatform, List.mem_map]
  constructor
  · rintro ⟨⟨tag, listed⟩, member, same⟩
    cases same
    exact ⟨tag, (Dict.get?_eq_some_iff ..).mpr member, rfl⟩
  · rintro ⟨tag, found, rfl⟩
    exact ⟨(tag, names), (Dict.get?_eq_some_iff ..).mp found, rfl⟩

theorem TagsApart.eq_of_tag (tags : d.TagsApart) {e e' : Platform × List String} (member : e ∈ d.byPlatform)
    (member' : e' ∈ d.byPlatform) (same : e.1.tag = e'.1.tag) : e = e' := by
  have nodup : (d.byPlatform.map fun e => e.1.tag).Nodup := by
    rw [tags.byPlatform, List.map_map]
    rwa [TagsApart, Dict.keys, List.map_map] at tags
  exact List.inj_on_of_nodup_map nodup member member' same

end Dispatchable

namespace Scheduler

variable {d : Dispatchable} {running : List Build} {a b : Build}

/-! ### Order -/

def Before (a b : Build) : Prop :=
  a.platform.tag < b.platform.tag ∨ a.platform.tag = b.platform.tag ∧ a.package < b.package

theorem precedes_iff : precedes a b = true ↔ a.platform.tag < b.platform.tag ∨
    a.platform.tag = b.platform.tag ∧ a.package ≤ b.package := by
  rw [precedes]
  split
  · rename_i differ
    rw [decide_eq_true_eq, or_iff_left fun same => differ same.1]
    constructor
    · intro below
      exact String.not_le.mp fun above => differ (String.le_antisymm below above)
    · intro less
      exact String.not_lt.mp (String.lt_asymm less)
  · rename_i same
    rw [not_not] at same
    rw [decide_eq_true_eq, same, or_iff_right (String.lt_irrefl _), and_iff_right rfl]

theorem precedes_trans (a b c : Build) (first : precedes a b = true) (second : precedes b c = true) :
    precedes a c = true := by
  rw [precedes_iff] at *
  rcases first with less | ⟨same, first⟩ <;> rcases second with less' | ⟨same', second⟩
  · exact Or.inl (String.lt_trans less less')
  · exact Or.inl (same' ▸ less)
  · exact Or.inl (same ▸ less')
  · exact Or.inr ⟨same.trans same', String.le_trans first second⟩

theorem precedes_total (a b : Build) : (precedes a b || precedes b a) = true := by
  rw [Bool.or_eq_true, precedes_iff, precedes_iff]
  by_cases same : a.platform.tag = b.platform.tag
  · rcases String.le_total a.package b.package with below | above
    · exact Or.inl (Or.inr ⟨same, below⟩)
    · exact Or.inr (Or.inr ⟨same.symm, above⟩)
  · rcases String.le_total a.platform.tag b.platform.tag with below | above
    · exact Or.inl (Or.inl (String.not_le.mp fun above => same (String.le_antisymm below above)))
    · exact Or.inr (Or.inl (String.not_le.mp fun below => same (String.le_antisymm below above)))

example : precedes ⟨⟨"arm64", "linux"⟩, "b", ""⟩ ⟨⟨"x86_64", "linux"⟩, "a", ""⟩ = true := by decide +kernel

/-! ### Plans -/

theorem mem_asked_iff : b ∈ asked d ↔
    b.rev = d.revision ∧ ∃ names, (b.platform, names) ∈ d.byPlatform ∧ b.package ∈ names := by
  rw [asked, List.mem_flatMap]
  constructor
  · rintro ⟨⟨p, names⟩, member, listed⟩
    obtain ⟨n, isIn, rfl⟩ := List.mem_map.mp listed
    exact ⟨rfl, names, member, isIn⟩
  · rintro ⟨rev, names, member, isIn⟩
    refine ⟨_, member, List.mem_map.mpr ⟨b.package, isIn, ?_⟩⟩
    rw [← rev]

/-- Builds that were asked for are known by their place in the order. -/
theorem eq_of_asked (tags : d.TagsApart) (asked₁ : a ∈ asked d) (asked₂ : b ∈ asked d)
    (tag : a.platform.tag = b.platform.tag) (package : a.package = b.package) : a = b := by
  obtain ⟨rev₁, names₁, member₁, -⟩ := mem_asked_iff.mp asked₁
  obtain ⟨rev₂, names₂, member₂, -⟩ := mem_asked_iff.mp asked₂
  have platform := congrArg Prod.fst (tags.eq_of_tag member₁ member₂ tag)
  cases a
  cases b
  simp_all

theorem plan_sorted (tags : d.TagsApart) (distinct : d.Distinct) (running : List Build) :
    (plan d running).Pairwise Before := by
  have sorted : (plan d running).Pairwise fun a b => precedes a b = true :=
    List.pairwise_mergeSort precedes_trans precedes_total _
  refine (sorted.and (nodup_plan distinct running)).imp_of_mem ?_
  rintro a b isIn isIn' ⟨ordered, differ⟩
  rcases precedes_iff.mp ordered with less | ⟨same, below⟩
  · exact Or.inl less
  · refine Or.inr ⟨same, String.not_le.mp fun above => differ ?_⟩
    exact eq_of_asked tags (mem_plan.mp isIn).1 (mem_plan.mp isIn').1 same (String.le_antisymm below above)

theorem mem_platforms_adopt (s : Scheduler) (queue : List Build) (q : Platform) :
    q ∈ (s.adopt d queue).platforms ↔ q ∈ s.platforms ∨ ∃ names, (q, names) ∈ d.byPlatform := by
  have grown : ∀ (l : List (Platform × List String)) (known : List Platform),
      q ∈ l.foldl (fun ps e => ps.insert e.1) known ↔ q ∈ known ∨ ∃ names, (q, names) ∈ l := by
    intro l
    induction l with
    | nil => simp
    | cons e rest ih =>
      intro known
      rw [List.foldl_cons, ih, List.mem_insert_iff]
      obtain ⟨p, names⟩ := e
      simp only [List.mem_cons, Prod.mk.injEq, exists_or, exists_and_left, exists_eq, and_true]
      tauto
  exact grown d.byPlatform s.platforms

/-! ### A new queue -/

variable {σ : Type} {c : Manager.Client} {p : Provider σ} {s s' : Scheduler} {st st' : σ} {f : Fault}

theorem reconstruct_of_ok (answer : c.dispatchable = .ok d) (listing : p.running st = .ok running) :
    s.reconstruct c p st = .ok (s.adopt d (plan d running)) := by
  rw [reconstruct, answer, listing]
  rfl

theorem reconstruct_of_refused (refused : c.dispatchable = .error f) : s.reconstruct c p st = .error f := by
  rw [reconstruct, refused]
  rfl

theorem reconstruct_of_unlisted (answer : c.dispatchable = .ok d) (unlisted : p.running st = .error f) :
    s.reconstruct c p st = .error f := by
  rw [reconstruct, answer, unlisted]
  rfl

theorem send_of_ok (sent : s.send p st = (.ok (), s', st')) :
    ∃ b, s.queue = b :: s'.queue ∧ p.dispatch b st = (.ok (), st') ∧ s'.platforms = s.platforms := by
  rw [send] at sent
  split at sent
  · cases sent
  · rename_i b rest queue
    split at sent
    · rename_i st'' taken
      cases sent
      exact ⟨b, queue, taken, rfl⟩
    · cases sent

theorem send_of_error (sent : s.send p st = (.error f, s', st')) : s' = s := by
  rw [send] at sent
  split at sent
  · cases sent
    rfl
  · split at sent
    · cases sent
    · cases sent
      rfl

/-- A new queue is strictly in order and holds exactly the builds that the manager asks for and that
are not in progress, and the platforms of the answer are known from then on. If the manager does not
answer or the builds in progress are not told, the scheduler goes on as it is, and so it does when a
build is not taken. When one is taken, it was the first of the queue. -/
theorem reconstruct_exact (c : Manager.Client) (p : Provider σ) (s : Scheduler) (st : σ) :
    (∀ d running, c.dispatchable = .ok d → p.running st = .ok running → d.TagsApart → d.Distinct →
      ∃ s', s.reconstruct c p st = .ok s' ∧ s'.queue.Pairwise Before ∧
        (∀ b, b ∈ s'.queue ↔ b.rev = d.revision ∧
          (∃ tag names, d.packages.get? tag = some names ∧ Platform.ofTag tag = b.platform ∧ b.package ∈ names) ∧
          b ∉ running) ∧
        ∀ q, q ∈ s'.platforms ↔ q ∈ s.platforms ∨ ∃ tag ∈ d.packages.keys, Platform.ofTag tag = q) ∧
      (∀ f, c.dispatchable = .error f ∨ (∃ d, c.dispatchable = .ok d) ∧ p.running st = .error f →
        s.reconstruct c p st = .error f ∧ (s.reconstruct c p st).toOption.getD s = s ∧
          s.doneAnswer c p st = (.empty 500, s)) ∧
      (∀ f s' st', s.send p st = (.error f, s', st') → s' = s) ∧
      ∀ s' st', s.send p st = (.ok (), s', st') →
        ∃ b, s.queue = b :: s'.queue ∧ p.dispatch b st = (.ok (), st') ∧ s'.platforms = s.platforms := by
  refine ⟨?_, ?_, fun f s' st' => send_of_error, fun s' st' => send_of_ok⟩
  · intro d running answer listing tags distinct
    refine ⟨_, reconstruct_of_ok answer listing, plan_sorted tags distinct running, ?_, ?_⟩
    · intro b
      have listed : (∃ names, (b.platform, names) ∈ d.byPlatform ∧ b.package ∈ names) ↔
          ∃ tag names, d.packages.get? tag = some names ∧ Platform.ofTag tag = b.platform ∧
            b.package ∈ names := by
        simp only [tags.mem_byPlatform]
        constructor
        · rintro ⟨names, ⟨tag, found, same⟩, isIn⟩
          exact ⟨tag, names, found, same, isIn⟩
        · rintro ⟨tag, names, found, same, isIn⟩
          exact ⟨names, ⟨tag, found, same⟩, isIn⟩
      rw [← listed, ← and_assoc, ← mem_asked_iff]
      exact mem_plan
    · intro q
      rw [mem_platforms_adopt]
      simp only [tags.mem_byPlatform]
      refine or_congr_right ?_
      constructor
      · rintro ⟨names, tag, found, same⟩
        exact ⟨tag, List.mem_map_of_mem ((Dict.get?_eq_some_iff ..).mp found), same⟩
      · rintro ⟨tag, member, same⟩
        obtain ⟨⟨tag, names⟩, isIn, rfl⟩ := List.mem_map.mp member
        exact ⟨names, tag, (Dict.get?_eq_some_iff ..).mpr isIn, same⟩
  · rintro f refused
    have failed : s.reconstruct c p st = .error f := by
      rcases refused with refused | ⟨⟨d, answer⟩, unlisted⟩
      · exact reconstruct_of_refused refused
      · exact reconstruct_of_unlisted answer unlisted
    refine ⟨failed, by rw [failed]; rfl, ?_⟩
    rw [doneAnswer, update, failed]

/-! ### Who is served -/

theorem plan_first {first : Build} {rest : List Build} (split : plan d running = first :: rest) :
    (∀ other ∈ first :: rest, other.rev = d.revision) ∧
      ∀ other ∈ rest, first.platform.tag ≤ other.platform.tag := by
  constructor
  · intro other isIn
    exact (mem_asked_iff.mp (mem_plan.mp (split ▸ isIn)).1).1
  · have sorted : (plan d running).Pairwise fun a b => precedes a b = true :=
      List.pairwise_mergeSort precedes_trans precedes_total _
    rw [split, List.pairwise_cons] at sorted
    intro other isIn
    rcases precedes_iff.mp (sorted.1 other isIn) with less | ⟨same, -⟩
    · exact String.not_lt.mp (String.lt_asymm less)
    · exact same ▸ String.le_refl _

theorem turns_of_refused {first : Build} {rest : List Build} (queue : s.queue = first :: rest)
    (refused : p.dispatch first st = (.error f, st)) (n : Nat) : turns c p n s st = (s, st) := by
  have sent : s.send p st = (.error f, s, st) := by
    rw [send, queue]
    dsimp only
    rw [refused]
  induction n with
  | zero => rfl
  | succ n ih =>
    have turned : s.turn c p st = (s, st) := by
      rw [turn, sent]
      dsimp only
      rw [queue]
      rfl
    rw [turns, turned]
    exact ih

end Scheduler

namespace Local

variable {s : Site} {a b : Build} {st : Local × Disk}

theorem dispatch_like (accepted : ((provider s).dispatch b st).1 = .ok ()) (rev : a.rev = b.rev)
    (here : a.platform = s.builder.platform) :
    ∃ after, (provider s).dispatch a st = (.ok (), after) ∧ after.1.ongoing = st.1.ongoing ++ [a] := by
  obtain ⟨room, -, moves⟩ := take_cases (Prod.ext accepted rfl : (provider s).dispatch b st = (.ok (), _))
  have room' : admits s.builder.platform st.1 a = true := by
    simp only [admits, Bool.and_eq_true, decide_eq_true_eq] at room ⊢
    rw [rev]
    exact ⟨⟨here, room.1.2⟩, room.2⟩
  have same : mustMove s st.1 a = mustMove s st.1 b := by rw [mustMove, mustMove, rev]
  simp only [provider, run_dispatch, room', if_true, same]
  cases must : mustMove s st.1 b with
  | false => exact ⟨_, rfl, rfl⟩
  | true =>
    rw [must, if_pos rfl] at moves
    rw [rev, moves]
    exact ⟨_, rfl, rfl⟩

theorem dispatch_foreign (there : a.platform ≠ s.builder.platform) :
    (provider s).dispatch a st = (.error .noCapacity, st) := by
  have refuses : admits s.builder.platform st.1 a = false := by simp [admits, there]
  simp [provider, run_dispatch, refuses]

end Local

namespace Scheduler

/-- A machine on which some build of a queue could start is handed the first one if that is for the
machine's platform. Otherwise nothing is handed over, neither now nor later on. -/
theorem send_serves_first_platform (c : Manager.Client) (site : Local.Site) {s s' : Scheduler}
    {st now : Local × Disk} (made : s.reconstruct c (Local.provider site) st = .ok s')
    (queued : b ∈ s'.queue) (accepted : ((Local.provider site).dispatch b now).1 = .ok ()) :
    ∃ first rest, s'.queue = first :: rest ∧ (∀ other ∈ rest, first.platform.tag ≤ other.platform.tag) ∧
      (first.platform = site.builder.platform →
        ∃ after, s'.send (Local.provider site) now = (.ok (), { s' with queue := rest }, after) ∧
          after.1.ongoing = now.1.ongoing ++ [first]) ∧
      (first.platform ≠ site.builder.platform →
        s'.send (Local.provider site) now = (.error .noCapacity, s', now) ∧
          ∀ n, turns c (Local.provider site) n s' now = (s', now)) ∧
      ((∀ other ∈ s'.queue, other.platform ≠ site.builder.platform →
          site.builder.platform.tag < other.platform.tag) →
        first.platform = site.builder.platform) := by
  obtain ⟨d, running, planned⟩ : ∃ d running, s'.queue = plan d running := by
    rw [reconstruct] at made
    cases answer : c.dispatchable with
    | error f => simp [answer, bind, Except.bind] at made
    | ok d =>
      rw [answer] at made
      cases made
      exact ⟨d, st.1.ongoing, rfl⟩
  cases queue : s'.queue with
  | nil => simp [queue] at queued
  | cons first rest =>
    obtain ⟨revs, least⟩ := plan_first (planned.symm.trans queue)
    have rev : first.rev = b.rev :=
      (revs first List.mem_cons_self).trans (revs b (queue ▸ queued)).symm
    refine ⟨first, rest, rfl, least, ?_, ?_, ?_⟩
    · intro here
      obtain ⟨after, taken, ongoing⟩ := Local.dispatch_like accepted rev here
      refine ⟨after, ?_, ongoing⟩
      rw [send, queue]
      dsimp only
      rw [taken]
    · intro there
      refine ⟨?_, turns_of_refused queue (Local.dispatch_foreign there)⟩
      rw [send, queue]
      dsimp only
      rw [Local.dispatch_foreign there]
    · intro later
      by_contra there
      have host : b.platform = site.builder.platform := by
        by_contra foreign
        rw [Local.dispatch_foreign foreign] at accepted
        cases accepted
      have above := later first List.mem_cons_self there
      rcases List.mem_cons.mp (queue ▸ queued) with rfl | isIn
      · exact there host
      · exact String.not_le.mpr above (host ▸ least b isIn)

/-! ### An answer for two platforms -/

def twoPlatforms : Manager.Client where
  net _ := .ok (.json 200 (.obj [("Pkgs", .obj [("x86_64_linux", Json.ofNames ["zlib", "hello"]),
    ("arm64_sonoma", Json.ofNames ["zlib"])]), ("Revision", .str "r1")]))
  url := "http://manager/api"

/-- A provider that is building some things and takes no more. -/
def occupied : Provider (List Build) where
  dispatch _ st := (.error .noCapacity, st)
  running st := .ok st

theorem two_platforms_queued :
    ∃ s', ({} : Scheduler).reconstruct twoPlatforms occupied [build "zlib"] = .ok s' ∧ s'.queue.Pairwise Before ∧
      build "hello" ∈ s'.queue ∧ ⟨⟨"arm64", "sonoma"⟩, "zlib", "r1"⟩ ∈ s'.queue ∧ build "zlib" ∉ s'.queue ∧
      .host ∈ s'.platforms ∧ ⟨"arm64", "sonoma"⟩ ∈ s'.platforms := by
  have told : twoPlatforms.dispatchable.toOption.any (fun d => d.revision = "r1" ∧ d.packages = .ofList
      [("arm64_sonoma", ["zlib"]), ("x86_64_linux", ["zlib", "hello"])]) = true := by decide +kernel
  obtain ⟨⟨packages, revision⟩, answer, same⟩ := (Option.any_eq_true ..).mp told
  obtain ⟨rfl, rfl⟩ := of_decide_eq_true same
  have tags : (⟨.ofList [("arm64_sonoma", ["zlib"]), ("x86_64_linux", ["zlib", "hello"])], "r1"⟩ :
      Dispatchable).TagsApart := by
    rw [Dispatchable.TagsApart]
    decide
  obtain ⟨s', made, sorted, holds, known⟩ :=
    (reconstruct_exact twoPlatforms occupied {} [build "zlib"]).1 _ _ (eq_ok_of_toOption answer) rfl tags
      (by rw [Dispatchable.Distinct]; decide)
  refine ⟨s', made, sorted, (holds _).mpr ⟨rfl, ?_, by decide⟩, (holds _).mpr ⟨rfl, ?_, by decide⟩, ?_,
    (known _).mpr (Or.inr ?_), (known _).mpr (Or.inr ?_)⟩
  · exact ⟨"x86_64_linux", ["zlib", "hello"], by decide, by decide, by decide⟩
  · exact ⟨"arm64_sonoma", ["zlib"], by decide, by decide, by decide⟩
  · exact fun queued => ((holds _).mp queued).2.2 (List.mem_singleton.mpr rfl)
  · exact ⟨"x86_64_linux", by decide, by decide⟩
  · exact ⟨"arm64_sonoma", by decide, by decide⟩

theorem two_platforms_first (site : Local.Site) : ∃ s',
    ({} : Scheduler).reconstruct twoPlatforms (Local.provider site) (busy ["zlib"]) = .ok s' ∧
      s'.queue = [⟨⟨"arm64", "sonoma"⟩, "zlib", "r1"⟩, build "hello"] := by
  have told : twoPlatforms.dispatchable.toOption.any (fun d =>
      (asked d).filter (fun b => !([build "zlib"].contains b)) =
        [⟨⟨"arm64", "sonoma"⟩, "zlib", "r1"⟩, build "hello"]) = true := by decide +kernel
  obtain ⟨d, answer, same⟩ := (Option.any_eq_true ..).mp told
  refine ⟨_, reconstruct_of_ok (eq_ok_of_toOption answer) rfl, ?_⟩
  change plan d [build "zlib"] = _
  rw [plan, of_decide_eq_true same]
  exact List.mergeSort_of_pairwise (by decide)

/-- A machine with a slot to spare is handed nothing while a build for another platform comes first. -/
theorem foreign_build_blocks : ∃ s',
    ({} : Scheduler).reconstruct twoPlatforms (Local.provider bench) (busy ["zlib"]) = .ok s' ∧
      build "hello" ∈ s'.queue ∧
      ((Local.provider bench).dispatch (build "hello") (busy ["zlib"])).1 = .ok () ∧
      (s'.send (Local.provider bench) (busy ["zlib"])).1 = .error .noCapacity := by
  obtain ⟨s', made, queue⟩ := two_platforms_first bench
  refine ⟨s', made, by simp [queue], by rw [bench_takes (by decide)], ?_⟩
  rw [send, queue]
  dsimp only
  rw [Local.dispatch_foreign (by decide)]

/-- The machine that the first build is for gets it. -/
theorem first_platform_served : ∃ site s' rest after,
    ({} : Scheduler).reconstruct twoPlatforms (Local.provider site) (busy ["zlib"]) = .ok s' ∧
      s'.send (Local.provider site) (⟨1, []⟩, {}) = (.ok (), { s' with queue := rest }, after) ∧
      after.1.ongoing = [⟨⟨"arm64", "sonoma"⟩, "zlib", "r1"⟩] := by
  let site : Local.Site := { bench with builder := { bench.builder with platform := ⟨"arm64", "sonoma"⟩ } }
  obtain ⟨s', made, queue⟩ := two_platforms_first site
  have accepted : ((Local.provider site).dispatch ⟨⟨"arm64", "sonoma"⟩, "zlib", "r1"⟩ (⟨1, []⟩, {})).1 = .ok () :=
    rfl
  obtain ⟨first, rest, split, -, serves, -⟩ :=
    send_serves_first_platform twoPlatforms site made (by simp [queue]) accepted
  obtain ⟨rfl, -⟩ := List.cons.inj (split.symm.trans queue)
  obtain ⟨after, sent, ongoing⟩ := serves rfl
  exact ⟨_, s', rest, after, made, sent, ongoing⟩

end Scheduler

end Taproom
