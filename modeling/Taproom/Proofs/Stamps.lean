import Mathlib
import Taproom.Proofs.Import
import Taproom.Proofs.Json

/-!
Revision stamps. A manager is started with what an earlier one left in its store, brings its graphs to
the revision of the tap and moves with the tap from one revision to another. The revision that a graph
carries is that of the tap that it agrees with.
-/

namespace Taproom

open Disk (Place)
open Graph (Agrees)
open Path (IsComponent relative)
open Tap (Content Holds placeOf tableOf)

def Tap.Keeps (content content' : Content) : Prop := ∀ n, Holds content n → Holds content' n

/-- Some paths are those of the files that differ between two contents. -/
def Tap.Changed (content content' : Content) (paths : List String) : Prop :=
  ∀ p, p ∈ paths ↔ ∃ names, p = relative names ∧ content.get? names ≠ content'.get? names

def Tap.changes (content content' : Content) : List String :=
  ((content.keys ++ content'.keys).filter fun names =>
    content.get? names ≠ content'.get? names).map relative

theorem Tap.changed_changes (content content' : Content) :
    Changed content content' (changes content content') := by
  intro p
  simp only [changes, List.mem_map, List.mem_filter, List.mem_append, decide_eq_true_eq,
    ← Dict.get?_isSome_iff]
  constructor
  · rintro ⟨names, ⟨-, differ⟩, rfl⟩
    exact ⟨names, rfl, differ⟩
  · rintro ⟨names, rfl, differ⟩
    refine ⟨names, ⟨?_, differ⟩, rfl⟩
    by_contra absent
    simp only [not_or, Option.not_isSome_iff_eq_none] at absent
    exact differ (absent.1.trans absent.2.symm)

/-- A tap holds a content on a disk. -/
def Tap.Shows (t : Tap) (content : Content) (d : Disk) : Prop := ∃ base, t.ShowsAt content base d

namespace Manager

variable {strict : Prop} {t : Tap} {content content' : Content} {base base' : Place} {d d' : Disk}
  {g : Graph} {rev tag : String} {paths : List String} {P : Atom → Prop} {s : Store}
  {store : Option Store} {platforms : List Platform} {disk : Disk}

/-! ### Imports -/

def withAliases (g : Graph) (table : Dict String String) : Graph :=
  { g with atom := { g.atom with aliases := table } }

theorem loadAliases_getD (d : Disk) (g : Graph) :
    (g.loadAliases d).toOption.getD g =
      withAliases g ((g.tap.aliases d).toOption.getD g.atom.aliases) := by
  rw [Graph.loadAliases]
  cases g.tap.aliases d <;> rfl

example : (Tap.readAliases "application app\n").toOption.map Dict.toList = some [("application", "app")] := by
  decide +kernel

theorem aliases_of_load (shows : t.ShowsAt content base d) (old : Dict String String)
    (readable : (t.aliases d).isOk = true ∨ old = {}) :
    (t.aliases d).toOption.getD old = tableOf content := by
  rw [← shows.aliases_getD]
  rcases readable with readable | rfl
  · cases loaded : t.aliases d with
    | error fault =>
      rw [loaded] at readable
      cases readable
    | ok table => rfl
  · rfl

theorem agrees_check (agrees : Agrees strict t content g.atom) :
    Agrees strict t content g.check.2.atom :=
  ⟨agrees.aliases, agrees.current, agrees.nothingElse⟩

theorem agrees_setRev (rev : String) (agrees : Agrees strict t content g.atom) :
    Agrees strict t content (setRev g rev).atom :=
  ⟨agrees.aliases, agrees.current, agrees.nothingElse⟩

theorem importFresh_agrees (rev : String) (shows : g.tap.ShowsAt content base d)
    (readable : (g.tap.aliases d).isOk = true ∨ g.atom.aliases = {})
    (before : strict → ∀ n, ¬ Holds content n → g.atom.packages.get? n = none) :
    Agrees strict g.tap content (importFresh d rev g).atom := by
  rw [importFresh, loadAliases_getD]
  have agrees := Graph.agrees_importAll
    (withAliases g ((g.tap.aliases d).toOption.getD g.atom.aliases)) shows
    (aliases_of_load shows _ readable) before
  exact agrees_setRev rev (agrees_check agrees)

theorem importPaths_reload (among : ∃ p ∈ paths, Path.base p = "aliases")
    (readable : (g.tap.aliases d).isOk = true) :
    importPaths d paths g =
      (Graph.importAll d
        (withAliases g ((g.tap.aliases d).toOption.getD g.atom.aliases))).check.2 := by
  have among : (paths.any fun p => Path.base p == "aliases") = true := by simpa using among
  rw [importPaths, Graph.importChanged, if_pos among, Graph.loadAliases]
  cases loaded : g.tap.aliases d with
  | error fault =>
    rw [loaded] at readable
    cases readable
  | ok table => rfl

theorem importPaths_agrees (shows : g.tap.ShowsAt content base d)
    (shows' : g.tap.ShowsAt content' base' d') (agrees : Agrees strict g.tap content g.atom)
    (changed : Tap.Changed content content' paths)
    (reload : (∃ p ∈ paths, Path.base p = "aliases") →
      (g.tap.aliases d').isOk = true ∧ (strict → Tap.Keeps content content')) :
    Agrees strict g.tap content' (importPaths d' paths g).atom := by
  by_cases among : ∃ p ∈ paths, Path.base p = "aliases"
  · obtain ⟨readable, keeps⟩ := reload among
    rw [importPaths_reload among readable]
    have agrees' := Graph.agrees_importAll
      (withAliases g ((g.tap.aliases d').toOption.getD g.atom.aliases)) shows'
      (aliases_of_load shows' _ (Or.inl readable)) fun isStrict n absent =>
        agrees.nothingElse isStrict n fun holds => absent (keeps isStrict n holds)
    exact agrees_check agrees'
  · have none : (paths.any fun p => Path.base p == "aliases") = false := by simpa using among
    rw [importPaths, Graph.importChanged, none]
    have unchanged : ∀ names, relative names ∉ paths → content.get? names = content'.get? names := by
      intro names unlisted
      by_contra differ
      exact unlisted ((changed _).mpr ⟨names, rfl, differ⟩)
    have table : tableOf content = tableOf content' := by
      have alone : relative ["aliases"] = "aliases" := by simp [relative]
      have same := unchanged ["aliases"] fun listed => among ⟨_, listed, by rw [alone]; decide⟩
      rw [tableOf, tableOf, same]
    refine agrees_check (Graph.agrees_importNames g shows shows' agrees table ?_)
    intro n named unlisted rest
    apply unchanged
    intro listed
    have name := Tap.nameOfPath_placeOf (Tap.isLiteral_of_isName named) rest
    refine unlisted (List.mem_filter.mpr ⟨List.mem_map.mpr ⟨_, listed, name⟩, ?_⟩)
    simpa using Formula.ne_empty_of_isName named

theorem importFresh_frame (d : Disk) (rev : String) (g : Graph) :
    (importFresh d rev g).tap = g.tap ∧ (importFresh d rev g).atom.platform = g.atom.platform ∧
      (importFresh d rev g).atom.rev = rev := by
  have stamped : ∀ h : Graph, (setRev h rev).tap = h.tap ∧
      (setRev h rev).atom.platform = h.atom.platform ∧ (setRev h rev).atom.rev = rev :=
    fun _ => ⟨rfl, rfl, rfl⟩
  rw [importFresh, loadAliases_getD]
  have frame := (Graph.importAll_frame d
    (withAliases g ((g.tap.aliases d).toOption.getD g.atom.aliases))).trans (Graph.check_frame _)
  obtain ⟨tap, platform, rev⟩ := stamped _
  exact ⟨tap.trans frame.tap, platform.trans frame.platform, rev⟩

theorem importPaths_tap (d : Disk) (paths : List String) (g : Graph) :
    (importPaths d paths g).tap = g.tap := by
  rw [importPaths, (Graph.check_frame _).tap, Graph.importChanged]
  split
  · rw [Graph.loadAliases]
    cases g.tap.aliases d with
    | error fault => rfl
    | ok table => exact (Graph.importAll_frame d (withAliases g table)).tap
  · exact (Graph.importNames_frame d g _).tap

/-! ### Stores -/

theorem get_eq_some {key text : String} (found : s.get key = .ok (some text)) :
    s.entries.get? key = some text := by
  rw [Store.get] at found
  split at found
  · cases found
  · split at found
    · rename_i empty
      split at found
      · cases found
      · cases found
        exact empty
    · exact Except.ok.inj found

/-- A store holds texts of atoms that satisfy `P`. -/
def Keeps (P : Atom → Prop) (s : Store) : Prop :=
  ∀ key text platform a, s.entries.get? key = some text →
    Atom.decode? { platform } text = some a → P a

theorem keeps_keep (keeps : Keeps P s) (tag : String) (good : P g.atom) :
    Keeps P (keep s tag g) := by
  rw [keep, Store.put]
  cases s.putFault.or (s.keyFault? (storeKey tag)) with
  | some fault => exact keeps
  | none =>
    intro key text platform a found decoded
    by_cases same : key = storeKey tag
    · rw [same, Dict.get?_insert_self, Option.some.injEq] at found
      rw [← found, Atom.decode?_encode, Option.some.injEq] at decoded
      exact decoded ▸ good
    · rw [Dict.get?_insert_of_ne _ same] at found
      exact keeps key text platform a found decoded

theorem keeps_keepAll {l : List (String × Graph)} (good : ∀ e ∈ l, P e.2.atom) (keeps : Keeps P s) :
    Keeps P (l.foldl (fun s (tag, g) => keep s tag g) s) := by
  induction l generalizing s with
  | nil => exact keeps
  | cons e l ih =>
    rw [List.forall_mem_cons] at good
    exact ih good.2 (keeps_keep keeps e.1 good.1)

theorem keeps_persist (m : Manager) (stored : ∀ s ∈ m.store, Keeps P s)
    (graphs : ∀ tag g, m.graphs.get? tag = some g → P g.atom) :
    ∀ s ∈ m.persist.store, Keeps P s := by
  intro s member
  obtain ⟨s₀, before, rfl⟩ := Option.map_eq_some_iff.mp member
  refine keeps_keepAll ?_ (stored s₀ before)
  rintro ⟨tag, g⟩ member
  exact graphs tag g ((m.graphs.get?_eq_some_iff tag g).mpr member)

theorem restore_cases (keeps : Keeps P s) (tag : String) (g : Graph) (good : P g.atom) :
    (restore s tag g).tap = g.tap ∧ P (restore s tag g).atom := by
  rw [restore]
  split
  · rename_i text found
    split
    · rename_i a decoded
      exact ⟨rfl, keeps _ text _ a (get_eq_some found) decoded⟩
    · exact ⟨rfl, good⟩
  · exact ⟨rfl, good⟩

/-! ### Runs -/

/-- A manager, the disk at hand, and whether the graphs were brought to the revision of the tap. -/
structure Moment where
  manager : Manager
  disk : Disk
  inStep : Bool

/-- Everything can be imported over what was imported of another content: the aliases can be read
and, if nothing else is to stay, no formula went away. -/
def Renewable (strict : Prop) (t : Tap) (content content' : Content) (d : Disk) : Prop :=
  (t.aliases d).isOk = true ∧ (strict → Tap.Keeps content content')

/-- What can happen to a manager whose tap has the contents of a history, by revision. A checkout
that succeeds leaves the content of the revision that it tells, and one that moves tells the paths
that changed. -/
inductive Step (strict : Prop) (t : Tap) (history : String → Content) : Moment → Moment → Prop where
  /-- A manager is started with what is left in the store. -/
  | restart {m : Moment} {platforms : List Platform} {store : Option Store} {disk : Disk}
      (left : ∀ s ∈ store, ∀ key text, s.entries.get? key = some text →
        ∃ s₀ ∈ m.manager.store, s₀.entries.get? key = some text) :
      Step strict t history m ⟨fresh t platforms store, disk, false⟩
  | bootstrap {m : Moment} {c : Checkout} {manager : Manager} {disk : Disk}
      (done : Manager.bootstrap c m.manager m.disk = (.ok (), manager, disk))
      (isRev : manager.rev ≠ "") (shows : t.Shows (history manager.rev) disk)
      (renewable : ∀ tag g, m.manager.restoreAll.graphs.get? tag = some g → g.atom.rev ≠ "" →
        g.atom.rev ≠ manager.rev →
          Renewable strict t (history g.atom.rev) (history manager.rev) disk) :
      Step strict t history m ⟨manager, disk, true⟩
  | bootstrapFails {m : Moment} {c : Checkout} {f : Fault} {manager : Manager} {disk : Disk}
      (failed : Manager.bootstrap c m.manager m.disk = (.error f, manager, disk)) :
      Step strict t history m ⟨manager, disk, false⟩
  | syncTo {m : Moment} {c : Checkout} {rev : String} {paths : List String} {disk : Disk}
      (inStep : m.inStep = true) (moved : (c.moveTo rev).run m.disk = (.ok paths, disk))
      (isRev : rev ≠ "") (shows : t.Shows (history rev) disk)
      (changed : Tap.Changed (history m.manager.rev) (history rev) paths)
      (renewable : (∃ p ∈ paths, Path.base p = "aliases") →
        Renewable strict t (history m.manager.rev) (history rev) disk) :
      Step strict t history m ⟨(Manager.syncTo c rev m.manager m.disk).2.1, disk, true⟩
  | syncFails {m : Moment} {c : Checkout} {rev : String} {f : Fault} {disk : Disk}
      (inStep : m.inStep = true) (failed : (c.moveTo rev).run m.disk = (.error f, disk))
      (shows : t.Shows (history m.manager.rev) disk) :
      Step strict t history m ⟨(Manager.syncTo c rev m.manager m.disk).2.1, disk, true⟩

/-- An atom agrees with the tap at the revision that it carries. Without a revision it is empty. -/
structure Stamped (strict : Prop) (t : Tap) (history : String → Content) (a : Atom) : Prop where
  agrees : a.rev ≠ "" → Agrees strict t (history a.rev) a
  empty : a.rev = "" → a.packages = {} ∧ a.aliases = {}

structure Truthful (strict : Prop) (t : Tap) (history : String → Content) (m : Moment) : Prop where
  stored : ∀ s ∈ m.manager.store, Keeps (Stamped strict t history) s
  graphs : ∀ tag g, m.manager.graphs.get? tag = some g → g.tap = t ∧ Stamped strict t history g.atom
  inStep : m.inStep = true → m.manager.rev ≠ "" ∧ t.Shows (history m.manager.rev) m.disk ∧
    ∀ tag g, m.manager.graphs.get? tag = some g → g.atom.rev = m.manager.rev

variable {history : String → Content} {m m' : Moment}

theorem stamped_fresh (strict : Prop) (t : Tap) (history : String → Content) (p : Platform) :
    Stamped strict t history (Graph.fresh t p).atom :=
  ⟨fun isRev => absurd rfl isRev, fun _ => ⟨rfl, rfl⟩⟩

theorem fresh_graph (found : (fresh t platforms store).graphs.get? tag = some g) :
    ∃ p, g = Graph.fresh t p := by
  rcases Dict.get?_foldl_insert_cases _ _ found with member | none
  · obtain ⟨p, -, same⟩ := List.mem_map.mp member
    exact ⟨p, (congrArg Prod.snd same).symm⟩
  · cases none

theorem restoreAll_graph {m : Manager} (stored : ∀ s ∈ m.store, Keeps P s)
    (graphs : ∀ tag g, m.graphs.get? tag = some g → g.tap = t ∧ P g.atom) (tag : String) (g : Graph)
    (found : m.restoreAll.graphs.get? tag = some g) : g.tap = t ∧ P g.atom := by
  rw [restoreAll] at found
  cases store : m.store with
  | none =>
    rw [store] at found
    exact graphs tag g found
  | some s =>
    rw [store] at found
    simp only [Dict.get?_map, Option.map_eq_some_iff] at found
    obtain ⟨g₀, before, rfl⟩ := found
    obtain ⟨tap, good⟩ := graphs tag g₀ before
    obtain ⟨same, good⟩ := restore_cases (stored s store) tag g₀ good
    exact ⟨same.trans tap, good⟩

theorem stamped_renewed (isRev : rev ≠ "") (shows : t.Shows (history rev) d) (tap : g.tap = t)
    (stamped : Stamped strict t history g.atom)
    (renewable : g.atom.rev ≠ "" → g.atom.rev ≠ rev →
      Renewable strict t (history g.atom.rev) (history rev) d) :
    (if g.atom.rev = rev then g else importFresh d rev g).tap = t ∧
      (if g.atom.rev = rev then g else importFresh d rev g).atom.rev = rev ∧
      Stamped strict t history (if g.atom.rev = rev then g else importFresh d rev g).atom := by
  split
  · rename_i already
    exact ⟨tap, already, stamped⟩
  · rename_i other
    obtain ⟨base, shows⟩ := shows
    subst tap
    obtain ⟨sameTap, -, sameRev⟩ := importFresh_frame d rev g
    refine ⟨sameTap, sameRev, fun _ => ?_, fun none => absurd (sameRev.symm.trans none) isRev⟩
    rw [sameRev]
    by_cases none : g.atom.rev = ""
    · obtain ⟨packages, aliases⟩ := stamped.empty none
      refine importFresh_agrees rev shows (Or.inr aliases) fun _ n _ => ?_
      rw [packages]
      rfl
    · obtain ⟨readable, keeps⟩ := renewable none other
      refine importFresh_agrees rev shows (Or.inl readable) fun isStrict n absent => ?_
      exact (stamped.agrees none).nothingElse isStrict n fun holds => absent (keeps isStrict n holds)

theorem restoreAll_setRev (m : Manager) (rev : String) :
    ({ m with rev }).restoreAll = { m.restoreAll with rev } := by
  obtain ⟨platforms, graphs, index, old, store⟩ := m
  cases store <;> rfl

theorem restoreAll_store (m : Manager) : m.restoreAll.store = m.store := by
  obtain ⟨platforms, graphs, index, rev, store⟩ := m
  cases store <;> rfl

theorem bootstrap_eq_ok {c : Checkout} {m m' : Manager} (done : bootstrap c m d = (.ok (), m', d')) :
    ∃ rev, m' = persist { m.restoreAll with
      rev, graphs := m.restoreAll.graphs.map fun _ g =>
        if g.atom.rev = rev then g else importFresh d' rev g } := by
  rw [bootstrap] at done
  split at done
  · cases done
  · rename_i d₁ _
    split at done
    · cases done
    · rename_i rev d₂ _
      dsimp only at done
      rw [restoreAll_setRev] at done
      cases done
      exact ⟨rev, rfl⟩

theorem bootstrap_eq_error {c : Checkout} {m m' : Manager} {f : Fault}
    (failed : bootstrap c m d = (.error f, m', d')) : m'.graphs = m.graphs ∧ m'.store = m.store := by
  rw [bootstrap] at failed
  split at failed
  · cases failed
    exact ⟨rfl, rfl⟩
  · split at failed
    · cases failed
      exact ⟨rfl, rfl⟩
    · cases failed

theorem truthful_persist {manager : Manager}
    (stored : ∀ s ∈ manager.store, Keeps (Stamped strict t history) s) (isRev : manager.rev ≠ "")
    (shows : t.Shows (history manager.rev) disk)
    (graphs : ∀ tag g, manager.graphs.get? tag = some g →
      g.tap = t ∧ g.atom.rev = manager.rev ∧ Stamped strict t history g.atom) :
    Truthful strict t history ⟨manager.persist, disk, true⟩ where
  stored := keeps_persist manager stored fun tag g found => (graphs tag g found).2.2
  graphs tag g found := ⟨(graphs tag g found).1, (graphs tag g found).2.2⟩
  inStep _ := ⟨isRev, shows, fun tag g found => (graphs tag g found).2.1⟩

theorem truthful_step (truthful : Truthful strict t history m) (step : Step strict t history m m') :
    Truthful strict t history m' := by
  cases step with
  | restart left =>
    refine ⟨?_, ?_, fun inStep => by cases inStep⟩
    · intro s member key text platform a found decoded
      obtain ⟨s₀, before, found⟩ := left s member key text found
      exact truthful.stored s₀ before key text platform a found decoded
    · intro tag g found
      obtain ⟨p, rfl⟩ := fresh_graph found
      exact ⟨rfl, stamped_fresh strict t history p⟩
  | bootstrap done isRev shows renewable =>
    obtain ⟨rev, rfl⟩ := bootstrap_eq_ok done
    refine truthful_persist ?_ isRev shows ?_
    · rw [restoreAll_store]
      exact truthful.stored
    · intro tag g found
      simp only [Dict.get?_map, Option.map_eq_some_iff] at found
      obtain ⟨g₀, before, rfl⟩ := found
      obtain ⟨tap, stamped⟩ := restoreAll_graph truthful.stored truthful.graphs tag g₀ before
      exact stamped_renewed isRev shows tap stamped (renewable tag g₀ before)
  | bootstrapFails failed =>
    obtain ⟨graphs, store⟩ := bootstrap_eq_error failed
    refine ⟨?_, ?_, fun inStep => by cases inStep⟩
    · rw [store]
      exact truthful.stored
    · rw [graphs]
      exact truthful.graphs
  | @syncTo c rev paths disk inStep moved isRev shows changed renewable =>
    obtain ⟨isRev₀, ⟨base, before⟩, revs⟩ := truthful.inStep inStep
    rw [syncTo, moved]
    refine truthful_persist truthful.stored isRev shows ?_
    intro tag g found
    simp only [Dict.get?_map, Option.map_eq_some_iff] at found
    obtain ⟨g₀, old, rfl⟩ := found
    obtain ⟨rfl, stamped⟩ := truthful.graphs tag g₀ old
    have agrees := stamped.agrees (revs tag g₀ old ▸ isRev₀)
    rw [revs tag g₀ old] at agrees
    obtain ⟨base', shows⟩ := shows
    refine ⟨importPaths_tap disk paths g₀, rfl, fun _ => ?_, fun none => absurd none isRev⟩
    exact agrees_setRev rev (importPaths_agrees before shows agrees changed renewable)
  | syncFails inStep failed shows =>
    obtain ⟨isRev, -, revs⟩ := truthful.inStep inStep
    rw [syncTo, failed]
    exact ⟨truthful.stored, truthful.graphs, fun _ => ⟨isRev, shows, revs⟩⟩

theorem truthful_run (truthful : Truthful strict t history m)
    (run : Relation.ReflTransGen (Step strict t history) m m') : Truthful strict t history m' := by
  induction run with
  | refl => exact truthful
  | tail _ step ih => exact truthful_step ih step

theorem truthful_fresh (blank : ∀ s ∈ store, s.entries = {}) :
    Truthful strict t history ⟨fresh t platforms store, disk, false⟩ := by
  refine ⟨?_, ?_, fun inStep => by cases inStep⟩
  · intro s member key text platform a found
    rw [blank s member] at found
    cases found
  · intro tag g found
    obtain ⟨p, rfl⟩ := fresh_graph found
    exact ⟨rfl, stamped_fresh strict t history p⟩

theorem recipeAt?_importFresh (rev : String) (p : Platform) (shows : t.ShowsAt content base d)
    (n : String) :
    (importFresh d rev (Graph.fresh t p)).recipeAt? n = Graph.recipe? p (tableOf content) t d n := by
  have agrees : Agrees True (Graph.fresh t p).tap content
      (importFresh d rev (Graph.fresh t p)).atom :=
    importFresh_agrees rev shows (Or.inr rfl) fun _ _ _ => rfl
  obtain ⟨-, platform, -⟩ := importFresh_frame d rev (Graph.fresh t p)
  by_cases holds : Holds content n
  · rw [Graph.recipeAt?, agrees.current n holds base d shows, platform, agrees.aliases]
    rfl
  · rw [Graph.recipeAt?, agrees.nothingElse trivial n holds, Graph.recipe?_eq_none _ _ shows holds]
    rfl

/-- Revision stamps are truthful. Whatever managers came before and left in the store, a graph that
carries a revision has for every formula of the tap at that revision the package that importing
everything into an empty graph gives, but for what is said of bottles. It has no others if no step
imported everything over a revision with a formula that is gone. -/
theorem stamps_truthful (strict : Prop) (t : Tap) (history : String → Content)
    {platforms : List Platform} {store : Option Store} (blank : ∀ s ∈ store, s.entries = {})
    {disk : Disk} {m : Moment}
    (run : Relation.ReflTransGen (Step strict t history) ⟨fresh t platforms store, disk, false⟩ m)
    {tag : String} {g : Graph} (present : m.manager.graphs.get? tag = some g)
    (isRev : g.atom.rev ≠ "") {base : Place} {d : Disk}
    (shows : t.ShowsAt (history g.atom.rev) base d) :
    (∀ n, Holds (history g.atom.rev) n → g.recipeAt? n =
        (importFresh d g.atom.rev (Graph.fresh t g.atom.platform)).recipeAt? n) ∧
      (strict → ∀ n, g.recipeAt? n =
        (importFresh d g.atom.rev (Graph.fresh t g.atom.platform)).recipeAt? n) := by
  obtain ⟨-, stamped⟩ := (truthful_run (truthful_fresh blank) run).graphs tag g present
  have agrees := stamped.agrees isRev
  have current : ∀ n, Holds (history g.atom.rev) n → g.recipeAt? n =
      (importFresh d g.atom.rev (Graph.fresh t g.atom.platform)).recipeAt? n := by
    intro n holds
    rw [Graph.recipeAt?, agrees.current n holds base d shows, recipeAt?_importFresh _ _ shows,
      agrees.aliases]
  refine ⟨current, fun isStrict n => ?_⟩
  by_cases holds : Holds (history g.atom.rev) n
  · exact current n holds
  · rw [Graph.recipeAt?, agrees.nothingElse isStrict n holds, recipeAt?_importFresh _ _ shows,
      Graph.recipe?_eq_none _ _ shows holds]
    rfl

/-! ### A tap with three revisions -/

def recipeText (name : String) : String :=
  "name: " ++ name ++ "\ndesc: d\nhomepage: h\nversion: v\ngit:\n url: u\n tag: v\n"

/-- A disk with a tap that has one formula, and a second one and an alias if wanted. -/
def cellar (second nickname : Bool) : Disk where
  tree := .ofList ([(["tap"], .dir 0o755), (["tap", "Formula"], .dir 0o755),
      (["tap", "Formula", "app.yml"], .file 0)] ++
    (if second then [(["tap", "Formula", "lib.yml"], .file 1)] else []) ++
    if nickname then [(["tap", "aliases"], .file 2)] else [])
  bodies := .ofList [(0, ⟨(recipeText "app").toUTF8, 0o644⟩), (1, ⟨(recipeText "lib").toUTF8, 0o644⟩),
    (2, ⟨"application app\n".toUTF8, 0o644⟩)]
  nextBody := 3

def edition (rev : String) : Disk :=
  if rev = "r1" then cellar true false else if rev = "r2" then cellar false false
  else cellar false true

def editions (rev : String) : Content := (edition rev).filesBelow ["tap"]

def editionsCheckout : Checkout where
  bootstrap := set (edition "r1")
  fetch := pure ()
  moveTo rev := do
    let before := (← get).filesBelow ["tap"]
    set (edition rev)
    return Tap.changes before (editions rev)
  current := pure "r1"

theorem edition_shows (rev : String) : Tap.ShowsAt ⟨"/tap"⟩ (editions rev) ["tap"] (edition rev) := by
  have shown : ∀ second nickname, Tap.isShown ⟨"/tap"⟩ ["tap"] (cellar second nickname) = true := by decide +kernel
  refine Tap.showsAt_of_isShown ?_
  rw [edition]
  split
  · exact shown true false
  · split
    · exact shown false false
    · exact shown false true

def opened : Moment where
  manager := (bootstrap editionsCheckout (fresh ⟨"/tap"⟩ [.host] none) {}).2.1
  disk := edition "r1"
  inStep := true

def movedTo (rev : String) (m : Moment) : Moment where
  manager := (syncTo editionsCheckout rev m.manager m.disk).2.1
  disk := edition rev
  inStep := true

theorem step_opened (strict : Prop) :
    Step strict ⟨"/tap"⟩ editions ⟨fresh ⟨"/tap"⟩ [.host] none, {}, false⟩ opened := by
  refine .bootstrap (c := editionsCheckout) rfl (show "r1" ≠ "" by decide)
    ⟨["tap"], edition_shows "r1"⟩ ?_
  intro tag g found isRev
  have found : (fresh ⟨"/tap"⟩ [.host] none).graphs.get? tag = some g := found
  obtain ⟨p, rfl⟩ := fresh_graph found
  exact absurd rfl isRev

theorem step_movedTo (m : Moment) (inStep : m.inStep = true)
    (current : m.disk = edition m.manager.rev) (isRev : rev ≠ "")
    (renewable : (∃ p ∈ Tap.changes (editions m.manager.rev) (editions rev), Path.base p = "aliases") →
      Renewable strict ⟨"/tap"⟩ (editions m.manager.rev) (editions rev) (edition rev)) :
    Step strict ⟨"/tap"⟩ editions m (movedTo rev m) := by
  have moved : (editionsCheckout.moveTo rev).run m.disk =
      (.ok (Tap.changes (editions m.manager.rev) (editions rev)), edition rev) := by
    rw [editions, ← current]
    rfl
  exact .syncTo inStep moved isRev ⟨["tap"], edition_shows rev⟩ (Tap.changed_changes _ _) renewable

theorem readable_r3 : (Tap.aliases ⟨"/tap"⟩ (edition "r3")).isOk = true := by decide +kernel

/-- A formula goes away and then the aliases change. -/
theorem editions_truthful : ∃ m g,
    Relation.ReflTransGen (Step True ⟨"/tap"⟩ editions) ⟨fresh ⟨"/tap"⟩ [.host] none, {}, false⟩ m ∧
      m.manager.graphs.get? "x86_64_linux" = some g ∧ g.atom.rev = "r3" ∧
      ∀ n, g.recipeAt? n =
        (importFresh (edition "r3") "r3" (Graph.fresh ⟨"/tap"⟩ g.atom.platform)).recipeAt? n := by
  have first : Step True ⟨"/tap"⟩ editions opened (movedTo "r2" opened) := by
    refine step_movedTo opened rfl rfl (by decide) ?_
    rintro ⟨p, member, name⟩
    obtain ⟨names, listed, rfl⟩ := List.mem_map.mp member
    have none : ∀ names ∈ (editions "r1").keys ++ (editions "r2").keys,
        Path.base (relative names) ≠ "aliases" := by decide
    exact absurd name (none names (List.mem_filter.mp listed).1)
  have second : Step True ⟨"/tap"⟩ editions (movedTo "r2" opened)
      (movedTo "r3" (movedTo "r2" opened)) := by
    refine step_movedTo _ rfl rfl (by decide) fun _ => ⟨readable_r3, fun _ n => ?_⟩
    have kept : ∀ names ∈ (editions "r2").keys, ((editions "r3").get? names).isSome := by decide
    rintro ⟨named, rest, file⟩
    exact ⟨named, rest, kept _ ((Dict.get?_isSome_iff ..).mp file)⟩
  have run := ((Relation.ReflTransGen.single (step_opened True)).tail first).tail second
  have stamped : (((movedTo "r3" (movedTo "r2" opened)).manager.graphs.get? "x86_64_linux").any
      (·.atom.rev = "r3")) = true := by decide
  obtain ⟨g, found, isRev⟩ := (Option.any_eq_true ..).mp stamped
  have isRev : g.atom.rev = "r3" := of_decide_eq_true isRev
  refine ⟨_, g, run, found, isRev, fun n => ?_⟩
  rw [← isRev]
  exact (stamps_truthful True ⟨"/tap"⟩ editions (by simp) run found (by rw [isRev]; decide)
    (edition_shows _)).2 trivial n

/-- If the aliases change as the formula goes away, it stays. -/
theorem gone_formula_stays : ∃ m g,
    Relation.ReflTransGen (Step False ⟨"/tap"⟩ editions) ⟨fresh ⟨"/tap"⟩ [.host] none, {}, false⟩ m ∧
      m.manager.graphs.get? "x86_64_linux" = some g ∧ g.atom.rev = "r3" ∧
      (g.recipeAt? "lib").isSome ∧
      (importFresh (edition "r3") "r3" (Graph.fresh ⟨"/tap"⟩ g.atom.platform)).recipeAt? "lib" = none := by
  have step : Step False ⟨"/tap"⟩ editions opened (movedTo "r3" opened) :=
    step_movedTo opened rfl rfl (by decide) fun _ => ⟨readable_r3, False.elim⟩
  have run := (Relation.ReflTransGen.single (step_opened False)).tail step
  have stays : (((movedTo "r3" opened).manager.graphs.get? "x86_64_linux").any fun g =>
      g.atom.rev = "r3" ∧ (g.recipeAt? "lib").isSome ∧ (importFresh (edition "r3") "r3"
        (Graph.fresh ⟨"/tap"⟩ g.atom.platform)).recipeAt? "lib" = none) = true := by decide +kernel
  obtain ⟨g, found, holds⟩ := (Option.any_eq_true ..).mp stays
  exact ⟨_, g, run, found, of_decide_eq_true holds⟩

end Manager

end Taproom
