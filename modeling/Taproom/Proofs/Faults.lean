import Taproom.Proofs.Graph
import Taproom.Proofs.Operations

/-!
Names that are noted as bad. An import notes a formula that makes no package and a check notes a
package whose closure has no order, while only reading a name again takes its note away. So a note is
right about every name that was just read, and what is wrong beyond that is known from the last time
that the name was read and the checks since.
-/

namespace Taproom

open Path (relative)
open PathPattern (IsLiteral)
open Tap (Content placeOf)

/-- The tap has a formula of this name that cannot be read, is not sound or has no version. -/
def Tap.Unusable (t : Tap) (d : Disk) (n : String) : Prop :=
  t.has d n = true ∧
    ¬ ∃ f v, t.load d n = .ok f ∧ f.problems n = [] ∧ f.packageVersion? = some v

/-- Every file that differs between two contents is among the paths. -/
def Tap.Listed (content content' : Content) (paths : List String) : Prop :=
  ∀ names, content.get? names ≠ content'.get? names → relative names ∈ paths

namespace Graph

variable {d : Disk} {g : Graph} {t : Tap} {n : String}

/-- A package whose closure has a cycle or lacks a package. -/
def Broken (g : Graph) (n : String) : Prop :=
  g.atom.packages.contains n ∧
    ¬ (g.web fun _ => Package.allKinds).Orderable [g.canonicalName n]

/-! ### One import and one check -/

theorem packageOf_isOk_iff (atom : Atom) (d : Disk) (t : Tap) (n : String) :
    (∃ p, packageOf atom d t n = .ok p) ↔
      ∃ f v, t.load d n = .ok f ∧ f.problems n = [] ∧ f.packageVersion? = some v := by
  rw [packageOf]
  cases t.load d n with
  | error fault => simp [bind, Except.bind, Except.mapError]
  | ok f =>
    by_cases sound : f.problems n = []
    · cases version : f.packageVersion? <;>
        simp [bind, Except.bind, Except.mapError, sound, version, pure, Except.pure, throw,
          throwThe, MonadExceptOf.throw]
    · simp [bind, Except.bind, Except.mapError, sound, throw, throwThe, MonadExceptOf.throw]

theorem contains_bad_importName (d : Disk) (g : Graph) (first n : String) :
    (importName d g first).atom.bad.contains n ↔
      if n = first then g.tap.Unusable d first else g.atom.bad.contains n := by
  rw [importName, Tap.Unusable, ← packageOf_isOk_iff g.atom]
  by_cases same : n = first
  · subst same
    by_cases present : g.tap.has d n = true
    · cases packageOf g.atom d g.tap n <;> simp [present, Dict.contains, Dict.get?_erase_self]
    · simp [present, Dict.contains, Dict.get?_erase_self]
  · by_cases present : g.tap.has d first = true
    · cases packageOf g.atom d g.tap first <;>
        simp [present, same, Dict.contains, Dict.get?_erase_of_ne]
    · simp [present, same, Dict.contains, Dict.get?_erase_of_ne]

/-- A name that is read is bad if its formula is unusable, and the others stay as they are. -/
theorem contains_bad_importNames (d : Disk) (g : Graph) (names : List String) (n : String) :
    (importNames d g names).atom.bad.contains n ↔
      if n ∈ names then g.tap.Unusable d n else g.atom.bad.contains n := by
  induction names generalizing g with
  | nil => simp [importNames]
  | cons first names ih =>
    have frame := importName_frame d g first
    rw [importNames, List.foldl_cons, ← importNames, ih, frame.tap]
    by_cases later : n ∈ names
    · simp [later]
    · rw [if_neg later, contains_bad_importName]
      by_cases same : n = first
      · simp [same]
      · simp [same, later]

theorem fault?_isSome_iff (g : Graph) (n : String) :
    (g.fault? n).isSome ↔ ¬ (g.web fun _ => Package.allKinds).Orderable [g.canonicalName n] := by
  have ordered := g.orderBy_ok_iff [n] fun _ => Package.allKinds
  rw [List.map_singleton] at ordered
  rw [← ordered, fault?, order]
  cases g.orderBy [n] fun _ => Package.allKinds <;> simp

def faults (g : Graph) : List (String × Fault) :=
  g.names.filterMap fun n => (g.fault? n).map fun f => (n, f)

theorem mem_faults (g : Graph) (n : String) (f : Fault) :
    (n, f) ∈ g.faults ↔ g.atom.packages.contains n ∧ g.fault? n = some f := by
  simp [faults, names, Dict.contains_iff]

theorem faults_ascending (g : Graph) : g.faults.Pairwise fun x y => x.1 < y.1 := by
  rw [faults, List.pairwise_filterMap]
  refine g.atom.packages.keys_ascending.imp fun less x made y made' => ?_
  obtain ⟨f, -, rfl⟩ := Option.map_eq_some_iff.mp made
  obtain ⟨f', -, rfl⟩ := Option.map_eq_some_iff.mp made'
  exact less

/-- A check notes what it finds, and it keeps the notes on what it finds no fault in. -/
theorem get?_bad_check (g : Graph) (n : String) :
    (∀ f, (n, f) ∈ g.faults → g.check.2.atom.bad.get? n = some f.message) ∧
      (n ∉ g.faults.map Prod.fst → g.check.2.atom.bad.get? n = g.atom.bad.get? n) := by
  have shape : g.check.2.atom.bad = (g.faults.map fun x => (x.1, x.2.message)).foldl
      (fun bad x => bad.insert x.1 x.2) g.atom.bad := by
    rw [List.foldl_map]
    rfl
  rw [shape]
  constructor
  · intro f member
    refine Dict.get?_foldl_insert_of_mem ?_ _ (List.mem_map.mpr ⟨_, member, rfl⟩)
    exact List.pairwise_map.mpr (g.faults_ascending.imp fun less => String.ne_of_lt less)
  · intro absent
    exact Dict.get?_foldl_insert _ _ (by simpa using absent)

theorem contains_bad_check (g : Graph) (n : String) :
    g.check.2.atom.bad.contains n ↔ g.Broken n ∨ g.atom.bad.contains n := by
  obtain ⟨noted, kept⟩ := g.get?_bad_check n
  rw [Broken, ← fault?_isSome_iff]
  by_cases found : n ∈ g.faults.map Prod.fst
  · obtain ⟨⟨_, f⟩, member, rfl⟩ := List.mem_map.mp found
    have fault := (g.mem_faults ..).mp member
    rw [Dict.contains, noted f member]
    exact iff_of_true rfl (Or.inl ⟨fault.1, by rw [fault.2]; rfl⟩)
  · rw [Dict.contains, kept found, ← Dict.contains]
    refine ⟨Or.inr, fun either => either.resolve_left ?_⟩
    rintro ⟨known, fault⟩
    obtain ⟨f, fault⟩ := Option.isSome_iff_exists.mp fault
    exact found (List.mem_map.mpr ⟨(n, f), (g.mem_faults n f).mpr ⟨known, fault⟩, rfl⟩)

/-! ### Runs of imports -/

/-- One import with its check: the disk at hand, the names that were read from it, and the graph that
came of it. -/
structure Reading where
  disk : Disk
  read : List String
  graph : Graph

/-- Imports into an empty graph, the latest first. The aliases and all formulae are read to begin
with, and then all formulae or what lies at some paths, with every path among them whose file is not
as it was. -/
inductive Imported (t : Tap) (p : Platform) : List Reading → Prop where
  | first {d : Disk} (shows : ∃ content, t.Shows content d) :
      Imported t p [⟨d, (t.paths d).map Path.stem,
        (((fresh t p).loadAliases d).toOption.getD (fresh t p)).importAll d |>.check.2⟩]
  | all {r : Reading} {earlier : List Reading} {d : Disk} (run : Imported t p (r :: earlier))
      (shows : ∃ content, t.Shows content d) :
      Imported t p
        (⟨d, (t.paths d).map Path.stem, r.graph.importAll d |>.check.2⟩ :: r :: earlier)
  | changed {r : Reading} {earlier : List Reading} {d : Disk} {paths : List String}
      {content content' : Content} (run : Imported t p (r :: earlier))
      (before : t.Shows content r.disk) (shows : t.Shows content' d)
      (listed : Tap.Listed content content' paths)
      (readable : (∃ p ∈ paths, Path.base p = "aliases") → (t.aliases d).isOk = true) :
      Imported t p
        (⟨d, r.graph.namesRead d paths, Manager.importPaths d paths r.graph⟩ :: r :: earlier)

/-- The formula was unusable the last time that the name was read. -/
def UnusableWhenRead (t : Tap) (n : String) : List Reading → Prop
  | [] => False
  | r :: earlier => if n ∈ r.read then t.Unusable r.disk n else UnusableWhenRead t n earlier

/-- Some check found the package broken, and the name was not read after it. -/
def BrokenSinceRead (n : String) : List Reading → Prop
  | [] => False
  | r :: earlier => r.graph.Broken n ∨ n ∉ r.read ∧ BrokenSinceRead n earlier

variable {p : Platform} {r : Reading} {earlier readings : List Reading}

theorem contains_bad_read (g : Graph) (tap : g.tap = t) (d : Disk) (names : List String) (n : String)
    (earlier : List Reading)
    (before : g.atom.bad.contains n ↔ UnusableWhenRead t n earlier ∨ BrokenSinceRead n earlier) :
    (importNames d g names).check.2.atom.bad.contains n ↔
      UnusableWhenRead t n (⟨d, names, (importNames d g names).check.2⟩ :: earlier) ∨
        BrokenSinceRead n (⟨d, names, (importNames d g names).check.2⟩ :: earlier) := by
  have broken : (importNames d g names).check.2.Broken n ↔ (importNames d g names).Broken n := Iff.rfl
  rw [contains_bad_check, contains_bad_importNames, tap, before, UnusableWhenRead, BrokenSinceRead,
    broken]
  by_cases read : n ∈ names
  · simp only [read, not_true_eq_false, false_and, or_false]
    exact or_comm
  · simp only [read, not_false_eq_true, true_and]
    exact or_left_comm

theorem Imported.tap (run : Imported t p (r :: earlier)) : r.graph.tap = t := by
  generalize whole : r :: earlier = readings at run
  induction run generalizing r earlier with
  | first shows =>
    cases whole
    rw [Manager.loadAliases_getD, (check_frame _).tap, (importAll_frame ..).tap]
    rfl
  | all run shows ih =>
    cases whole
    rw [(check_frame _).tap, (importAll_frame ..).tap, ih rfl]
  | changed run before shows listed readable ih =>
    cases whole
    exact (Manager.importPaths_tap ..).trans (ih rfl)

/-- What is bad is known from the last time that a name was read and from the checks since. -/
theorem Imported.contains_bad_iff (run : Imported t p (r :: earlier)) (n : String) :
    r.graph.atom.bad.contains n ↔
      UnusableWhenRead t n (r :: earlier) ∨ BrokenSinceRead n (r :: earlier) := by
  generalize whole : r :: earlier = readings at run
  induction run generalizing r earlier with
  | @first d shows =>
    cases whole
    have blank : (fresh t p).atom.bad.contains n = false := rfl
    rw [Manager.loadAliases_getD]
    exact contains_bad_read (Manager.withAliases (fresh t p) _) rfl d _ n []
      (by simp [UnusableWhenRead, BrokenSinceRead, Manager.withAliases, blank])
  | @all r₀ earlier₀ d run shows ih =>
    cases whole
    rw [importAll, run.tap]
    exact contains_bad_read r₀.graph run.tap d _ n _ (ih rfl)
  | @changed r₀ earlier₀ d paths content content' run before shows listed readable ih =>
    cases whole
    obtain ⟨table, same⟩ := Manager.importPaths_eq d paths r₀.graph
    rw [same]
    exact contains_bad_read (Manager.withAliases r₀.graph table) run.tap d _ n _ (ih rfl)

/-! ### The tap as it is now -/

variable {content content' : Content} {paths : List String}

theorem mem_paths_of_has (shows : t.Shows content d) (literal : IsLiteral n.toList)
    (present : t.has d n = true) : n ∈ (t.paths d).map Path.stem := by
  obtain ⟨base, shows⟩ := shows
  rw [Tap.has] at present
  cases found : t.find d n with
  | error fault =>
    rw [found] at present
    cases present
  | ok path =>
    obtain ⟨rest, bytes, file, -⟩ := shows.find_eq_ok literal found
    exact shows.mem_paths literal (Option.isSome_of_eq_some file)

theorem files_of_unread (tap : g.tap = t) (shows : t.Shows content' d) (literal : IsLiteral n.toList)
    (present : t.has d n = true) (listed : Tap.Listed content content' paths)
    (readable : (∃ p ∈ paths, Path.base p = "aliases") → (t.aliases d).isOk = true)
    (unread : n ∉ g.namesRead d paths) (rest : List String) :
    content.get? (placeOf rest n) = content'.get? (placeOf rest n) := by
  rw [namesRead, tap] at unread
  split at unread
  · rename_i among
    rw [if_pos (readable (by simpa using among))] at unread
    exact absurd (mem_paths_of_has shows literal present) unread
  · by_contra differ
    have name := Tap.nameOfPath_placeOf literal rest
    have nonempty : n ≠ "" := by
      rintro rfl
      rw [Tap.has, Tap.find, if_pos rfl] at present
      cases present
    refine unread (List.mem_filter.mpr ⟨List.mem_map.mpr ⟨_, listed _ differ, name⟩, ?_⟩)
    simpa using nonempty

theorem Imported.unusableWhenRead_iff (run : Imported t p (r :: earlier)) (literal : IsLiteral n.toList)
    (present : t.has r.disk n = true) :
    UnusableWhenRead t n (r :: earlier) ↔ t.Unusable r.disk n := by
  generalize whole : r :: earlier = readings at run
  induction run generalizing r earlier with
  | first shows =>
    cases whole
    obtain ⟨content, shows⟩ := shows
    rw [UnusableWhenRead, if_pos (mem_paths_of_has shows literal present)]
  | all run shows ih =>
    cases whole
    obtain ⟨content, shows⟩ := shows
    rw [UnusableWhenRead, if_pos (mem_paths_of_has shows literal present)]
  | @changed r₀ earlier₀ d paths content content' run before shows listed readable ih =>
    cases whole
    rw [UnusableWhenRead]
    split
    · rfl
    · rename_i unread
      have same := files_of_unread run.tap shows literal present listed readable unread
      obtain ⟨base, before⟩ := before
      obtain ⟨base', shows⟩ := shows
      have finds := before.find_congr shows literal same
      have loads := before.load_congr shows literal same
      have had : t.has r₀.disk n = true := by
        rw [Tap.has, finds]
        exact present
      rw [ih had rfl, Tap.Unusable, Tap.Unusable, had, present, loads]

/-- Whatever the tap holds from one import to the next, a name is noted as bad exactly if the tap has
an unusable formula of that name, or its package is broken, or it was not read this time and either
its formula was unusable when it was last read and is gone, or some check since found it broken. -/
theorem bad_iff_unusable_or_broken (run : Imported t p (r :: earlier)) (literal : IsLiteral n.toList) :
    r.graph.atom.bad.contains n ↔
      t.Unusable r.disk n ∨ r.graph.Broken n ∨
        n ∉ r.read ∧ (t.has r.disk n = false ∧ UnusableWhenRead t n earlier ∨
          BrokenSinceRead n earlier) := by
  rw [run.contains_bad_iff, BrokenSinceRead]
  by_cases present : t.has r.disk n = true
  · rw [run.unusableWhenRead_iff literal present]
    simp [present]
  · have usable : ¬ t.Unusable r.disk n := fun unusable => present unusable.1
    rw [UnusableWhenRead]
    by_cases read : n ∈ r.read
    · simp [read, usable]
    · simp [read, usable, present, or_left_comm]

/-! ### A dependency that comes late -/

theorem broken_iff (g : Graph) (n : String) : g.Broken n ↔ g.atom.packages.contains n ∧ (g.fault? n).isSome := by
  rw [Broken, fault?_isSome_iff]

theorem not_unusable_of_packageOf {atom : Atom} (made : (packageOf atom d t n).isOk = true) : ¬ t.Unusable d n := by
  cases outcome : packageOf atom d t n with
  | error why =>
    rw [outcome] at made
    cases made
  | ok package => exact fun unusable => unusable.2 ((packageOf_isOk_iff ..).mp ⟨package, outcome⟩)

/-- A disk with a tap of one formula, which depends on another that the tap may have. -/
def counter (second : Bool) : Disk where
  tree := .ofList ([(["tap"], .dir 0o755), (["tap", "Formula"], .dir 0o755),
      (["tap", "Formula", "app.yml"], .file 0)] ++
    if second then [(["tap", "Formula", "lib.yml"], .file 1)] else [])
  bodies := .ofList [
    (0, ⟨(Manager.recipeText "app" ++ "depends_on:\n- name: lib\n").toUTF8, 0o644⟩),
    (1, ⟨(Manager.recipeText "lib").toUTF8, 0o644⟩)]
  nextBody := 2

theorem counter_shows (second : Bool) :
    Tap.ShowsAt ⟨"/tap"⟩ ((counter second).filesBelow ["tap"]) ["tap"] (counter second) := by
  refine Tap.showsAt_of_isShown ?_
  revert second
  decide +kernel

def opening : Reading where
  disk := counter false
  read := (Tap.paths ⟨"/tap"⟩ (counter false)).map Path.stem
  graph := (((fresh ⟨"/tap"⟩ .host).loadAliases (counter false)).toOption.getD
    (fresh ⟨"/tap"⟩ .host)).importAll (counter false) |>.check.2

def arrival : Reading where
  disk := counter true
  read := opening.graph.namesRead (counter true) ["Formula/lib.yml"]
  graph := Manager.importPaths (counter true) ["Formula/lib.yml"] opening.graph

theorem arrival_imported : Imported ⟨"/tap"⟩ .host [arrival, opening] := by
  have first : Imported ⟨"/tap"⟩ .host [opening] := .first ⟨_, ["tap"], counter_shows false⟩
  refine .changed first ⟨["tap"], counter_shows false⟩ ⟨["tap"], counter_shows true⟩ ?_ ?_
  · have same : ∀ names ∈ ((counter false).filesBelow ["tap"]).keys ++
        ((counter true).filesBelow ["tap"]).keys,
        relative names ∈ ["Formula/lib.yml"] ∨
          ((counter false).filesBelow ["tap"]).get? names =
            ((counter true).filesBelow ["tap"]).get? names := by decide
    intro names differ
    refine (same names ?_).resolve_right differ
    simp only [List.mem_append, ← Dict.get?_isSome_iff]
    by_contra absent
    simp only [not_or, Option.not_isSome_iff_eq_none] at absent
    exact differ (absent.1.trans absent.2.symm)
  · rintro ⟨path, member, name⟩
    rw [List.mem_singleton.mp member] at name
    exact absurd name (by decide)

theorem arrival_found : opening.graph.atom.packages.contains "app" = true ∧ (opening.graph.fault? "app").isSome = true ∧
    (∀ n ∈ ["app", "lib"], (arrival.graph.fault? n).isSome = false ∧
      (packageOf arrival.graph.atom (counter true) ⟨"/tap"⟩ n).isOk = true) ∧ arrival.read = ["lib"] := by
  decide +kernel

theorem arrival_sound {n : String} (member : n ∈ ["app", "lib"]) :
    ¬ Tap.Unusable ⟨"/tap"⟩ arrival.disk n ∧ ¬ arrival.graph.Broken n := by
  obtain ⟨unbroken, made⟩ := arrival_found.2.2.1 n member
  refine ⟨not_unusable_of_packageOf made, ?_⟩
  rw [broken_iff, unbroken]
  simp

theorem opening_broken : opening.graph.Broken "app" :=
  (broken_iff ..).mpr ⟨arrival_found.1, arrival_found.2.1⟩

theorem arrival_noted : Imported ⟨"/tap"⟩ .host [arrival, opening] ∧
    arrival.graph.atom.bad.contains "app" ∧ ¬ arrival.graph.atom.bad.contains "lib" := by
  have read : arrival.read = ["lib"] := arrival_found.2.2.2
  refine ⟨arrival_imported, ?_, ?_⟩
  · rw [bad_iff_unusable_or_broken arrival_imported (by decide), read]
    exact Or.inr (Or.inr ⟨by decide, Or.inr (Or.inl opening_broken)⟩)
  · obtain ⟨usable, unbroken⟩ := arrival_sound (n := "lib") (by decide)
    rw [bad_iff_unusable_or_broken arrival_imported (by decide), read]
    rintro (unusable | broken | ⟨unread, -⟩)
    · exact usable unusable
    · exact unbroken broken
    · exact unread (by simp)

/-- The dependency came, and still the package is noted as bad. -/
theorem stale_note_stays : ∃ r earlier, Imported ⟨"/tap"⟩ .host (r :: earlier) ∧
    r.graph.atom.bad.contains "app" ∧ ¬ Tap.Unusable ⟨"/tap"⟩ r.disk "app" ∧ ¬ r.graph.Broken "app" := by
  have unread : "app" ∉ arrival.read := by rw [arrival_found.2.2.2]; decide
  refine ⟨arrival, [opening], arrival_imported, ?_, arrival_sound (by decide)⟩
  rw [arrival_imported.contains_bad_iff]
  exact Or.inr (Or.inr ⟨unread, Or.inl opening_broken⟩)

end Graph

end Taproom
