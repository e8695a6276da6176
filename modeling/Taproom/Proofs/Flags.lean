import Taproom.Proofs.Operations

/-!
When a package is clean. Comparing a graph with the index makes its flags agree with what the index
holds, and they go on to agree until names are read from the tap: what is read is dirty until the
graph is compared again.
-/

namespace Taproom

namespace Manager

variable {m m' : Manager} {d d' : Disk} {tag n : String} {index index' : Index}
  {read paths : List String} {g g' : Graph} {p : Package}

/-! ### One graph -/

/-- The packages of a graph are clean if the index covers them, but for some names. -/
def AgreesBut (index : Index) (tag : String) (read : List String) (g : Graph) : Prop :=
  ∀ n p, g.atom.packages.get? n = some p →
    (p.dirty = false ↔ Graph.isCovered index tag n p = true ∧ n ∉ read)

theorem agrees_clean (index : Index) (label : g.atom.platform.tag = tag) :
    AgreesBut index tag [] (g.clean index) := by
  intro n p found
  rw [Graph.get?_clean, label] at found
  obtain ⟨before, -, rfl⟩ := Option.map_eq_some_iff.mp found
  have same : Graph.isCovered index tag n
      { before with dirty := !Graph.isCovered index tag n before } =
        Graph.isCovered index tag n before := rfl
  simp [same]

theorem agrees_importPaths (agrees : AgreesBut index tag read g) (d : Disk) (paths : List String) :
    AgreesBut index tag (read ++ g.namesRead d paths) (importPaths d paths g) := by
  obtain ⟨table, imported⟩ := importPaths_eq d paths g
  intro n p found
  rw [imported] at found
  have found : (Graph.importNames d (withAliases g table)
      (g.namesRead d paths)).atom.packages.get? n = some p := found
  rw [List.mem_append, not_or]
  by_cases now : n ∈ g.namesRead d paths
  · have dirty := Graph.dirty_importNames now found
    simp [dirty, now]
  · rw [Graph.get?_importNames_of_notMem now] at found
    simp [agrees n p found, now]

theorem get?_setFailed {name : String} {failed : Bool} (marked : g.setFailed name failed = .ok g')
    (found : g'.atom.packages.get? n = some p) :
    ∃ before, g.atom.packages.get? n = some before ∧ p.dirty = before.dirty ∧
      p.version = before.version := by
  rw [Graph.setFailed] at marked
  split at marked
  · rename_i q present
    cases marked
    dsimp only at found
    by_cases same : n = g.canonicalName name
    · rw [same, Dict.get?_insert_self, Option.some.injEq] at found
      exact ⟨q, same ▸ present, by rw [← found], by rw [← found]⟩
    · rw [Dict.get?_insert_of_ne _ same] at found
      exact ⟨p, found, rfl, rfl⟩
  · cases marked

theorem agrees_setFailed {name : String} {failed : Bool} (agrees : AgreesBut index tag read g)
    (marked : g.setFailed name failed = .ok g') : AgreesBut index tag read g' := by
  intro n p found
  obtain ⟨before, present, dirty, version⟩ := get?_setFailed marked found
  have same : Graph.isCovered index tag n p = Graph.isCovered index tag n before := by
    rw [Graph.isCovered, Graph.isCovered, version]
  rw [dirty, same]
  exact agrees n before present

theorem agrees_congr (agrees : AgreesBut index tag read g)
    (same : ∀ n, index'.get? tag n = index.get? tag n) : AgreesBut index' tag read g := by
  intro n p found
  rw [Graph.isCovered, same]
  exact agrees n p found

theorem addBottle_eq_ok (found : m.graphs.get? tag = some g) (e : Index.Entry) :
    ∃ m', m.addBottle tag e = .ok m' ∧ m'.index = m.index.add tag e ∧
      m'.graphs.get? tag = some (g.clean (m.index.add tag e)) := by
  refine ⟨_, by rw [addBottle, graph_of_get? found]; rfl, by rw [cleanTag_eq]; rfl, ?_⟩
  rw [cleanTag_eq]
  refine (Dict.get?_map ..).trans ?_
  rw [found, Option.map_some, if_pos rfl]

/-! ### Operations -/

def namesRead (m : Manager) (d : Disk) (paths : List String) (tag : String) : List String :=
  match m.graphs.get? tag with
  | some g => g.namesRead d paths
  | none => []

theorem namesRead_of_get? (found : m.graphs.get? tag = some g) (d : Disk) (paths : List String) :
    m.namesRead d paths tag = g.namesRead d paths := by
  rw [namesRead, found]

namespace Operation

/-- The names that were read from the tap since the graph under a tag was last compared, after an
operation; `read` are those before it. -/
def readSince (m : Manager) (d : Disk) (tag : String) (read : List String) :
    Operation → List String
  | syncTo c rev =>
    match (c.moveTo rev).run d with
    | (.ok paths, d) => read ++ m.namesRead d paths tag
    | (.error _, _) => read
  | importChanged paths => read ++ m.namesRead d paths tag
  | cleanPlatform net t => if t = tag ∧ (m.index.reload net d t).1.isOk then [] else read
  | addBottle t _ => if t = tag then [] else read
  | clean => []
  | loadIndexes _ _ => []
  | setFailed _ _ _ => read

variable {o : Operation}

theorem Fails.readSince_eq (fails : o.Fails m d) (found : m.graphs.get? tag = some g)
    (read : List String) : o.readSince m d tag read = read := by
  cases fails with
  | syncTo stays => rw [readSince, stays]
  | cleanPlatform failed =>
    rw [readSince, failed]
    exact if_neg fun ⟨_, ok⟩ => nomatch ok
  | unknownClean unknown =>
    refine if_neg fun ⟨same, _⟩ => ?_
    rw [same, found] at unknown
    cases unknown
  | unknownBottle unknown =>
    refine if_neg fun same => ?_
    rw [same, found] at unknown
    cases unknown
  | setFailed other name failed => rfl

theorem Changes.agrees {rev : String} {change : String → Graph → Graph}
    (changes : o.Changes m d rev index change) (found : m.graphs.get? tag = some g)
    (label : g.atom.platform.tag = tag) (agrees : AgreesBut m.index tag read g) :
    AgreesBut index tag (o.readSince m d tag read) (change tag g) := by
  cases changes with
  | syncTo moved =>
    rw [readSince, moved]
    dsimp only
    rw [namesRead_of_get? found]
    exact agrees_importPaths agrees _ _
  | importChanged paths =>
    rw [readSince, namesRead_of_get? found]
    exact agrees_importPaths agrees d paths
  | cleanPlatform reloaded =>
    rename_i net other
    rw [readSince, reloaded]
    dsimp only
    by_cases same : tag = other
    · rw [if_pos same, if_pos ⟨same.symm, rfl⟩]
      exact agrees_clean _ label
    · rw [if_neg same, if_neg fun cleaned => same cleaned.1.symm]
      exact agrees_congr agrees (Index.get?_reload_of_ne reloaded same)
  | addBottle other e =>
    rw [readSince]
    dsimp only
    by_cases same : tag = other
    · rw [if_pos same, if_pos same.symm]
      exact agrees_clean _ label
    · rw [if_neg same, if_neg fun cleaned => same cleaned.symm]
      exact agrees_congr agrees (Index.get?_add_of_ne same e)
  | clean => exact agrees_clean _ label
  | loadIndexes net urls => exact agrees_clean _ label
  | setFailed marking marked =>
    dsimp only
    split
    · rename_i same
      rw [same, marking, Option.some.injEq] at found
      exact agrees_setFailed (found ▸ agrees) marked
    · exact agrees

end Operation

/-! ### Runs -/

/-- A manager and, by tag, the names that were read from the tap since the graph was compared. -/
structure Watched where
  manager : Manager
  read : String → List String := fun _ => []

namespace Watched

def step (w : Watched) (o : Operation × Disk) : Watched where
  manager := o.1.after w.manager o.2
  read tag := o.1.readSince w.manager o.2 tag (w.read tag)

def run (w : Watched) (operations : List (Operation × Disk)) : Watched := operations.foldl step w

/-- The flags of every platform's graph agree with the index but for what was read. -/
def Current (w : Watched) : Prop :=
  ∀ tag g, w.manager.graphs.get? tag = some g → g.atom.platform.tag = tag →
    AgreesBut w.manager.index tag (w.read tag) g

theorem current_step {w : Watched} (current : Current w) (o : Operation × Disk) :
    Current (w.step o) := by
  obtain ⟨o, d⟩ := o
  intro tag g found label
  dsimp only [step] at found ⊢
  rcases after_cases w.manager d o with ⟨fails, same⟩ | ⟨rev, index, change, changes, result⟩
  · rw [same] at found ⊢
    rw [fails.readSince_eq found]
    exact current tag g found label
  · rw [result] at found ⊢
    obtain ⟨before, present, rfl⟩ := (Dict.get?_map_eq_some_iff ..).mp found
    rw [changes.platform present] at label
    exact changes.agrees present label (current tag before present label)

theorem current_run {w : Watched} (current : Current w) (operations : List (Operation × Disk)) :
    Current (w.run operations) := by
  induction operations generalizing w with
  | nil => exact current
  | cons o operations ih => exact ih (current_step current o)

theorem current_clean (m : Manager) : Current ⟨m.clean, fun _ => []⟩ := by
  intro tag g found label
  obtain ⟨before, -, rfl⟩ := (Dict.get?_map_eq_some_iff ..).mp found
  exact agrees_clean m.index label

end Watched

/-- Whatever is asked of a manager after it got its index, a package of a platform's graph is clean
exactly if the index has its version for the platform and it was not read from the tap since the
graph was last compared. -/
theorem clean_iff_covered (net : Http.Transport) (disk : Disk)
    (urls : Dict String (Dict String String)) (operations : List (Operation × Disk)) {w : Watched}
    (ran : w = Watched.run ⟨m.loadIndexes net disk urls, fun _ => []⟩ operations)
    (found : w.manager.graphs.get? tag = some g) (label : g.atom.platform.tag = tag)
    (packaged : g.atom.packages.get? n = some p) :
    p.dirty = false ↔
      (∃ e, w.manager.index.get? tag n = some e ∧ e.version = p.version) ∧ n ∉ w.read tag := by
  have start : Watched.Current ⟨m.loadIndexes net disk urls, fun _ => []⟩ := Watched.current_clean _
  have current := Watched.current_run start operations
  rw [← ran] at current
  rw [← Graph.isCovered_iff]
  exact current tag g found label n p packaged

def listless : Manager := opened.manager.loadIndexes Http.unreachable {} {}

def bottled (version : String) : Watched :=
  Watched.run ⟨listless, fun _ => []⟩ [(.addBottle "x86_64_linux" { name := "lib", version }, {})]

theorem bottled_clean : ∃ version g p,
    (bottled version).manager.graphs.get? "x86_64_linux" = some g ∧
      g.atom.packages.get? "lib" = some p ∧ p.dirty = false := by
  have covered : (((bottled "v").manager.graphs.get? "x86_64_linux").any fun g =>
      g.atom.platform.tag = "x86_64_linux" ∧ (g.atom.packages.get? "lib").any fun p =>
        ((bottled "v").manager.index.get? "x86_64_linux" "lib").any (·.version = p.version)) = true := by
    decide +kernel
  obtain ⟨g, found, holds⟩ := (Option.any_eq_true ..).mp covered
  obtain ⟨label, holds⟩ := of_decide_eq_true holds
  obtain ⟨p, packaged, holds⟩ := (Option.any_eq_true ..).mp holds
  obtain ⟨held, covers, same⟩ := (Option.any_eq_true ..).mp holds
  refine ⟨"v", g, p, found, packaged, ?_⟩
  exact (clean_iff_covered Http.unreachable {} {} _ rfl found label packaged).mpr
    ⟨⟨held, covers, of_decide_eq_true same⟩, List.not_mem_nil⟩

/-- If the formula is read again it is dirty, although its bottle is there and nothing changed. -/
theorem reread_dirty : ∃ version g p held,
    ((bottled version).run [(.importChanged ["Formula/lib.yml"], edition "r1")]).manager.graphs.get?
        "x86_64_linux" = some g ∧
      g.atom.packages.get? "lib" = some p ∧ p.dirty = true ∧
      ((bottled version).run
        [(.importChanged ["Formula/lib.yml"], edition "r1")]).manager.index.get?
          "x86_64_linux" "lib" = some held ∧ held.version = p.version := by
  have reread : ((((bottled "v").run [(.importChanged ["Formula/lib.yml"], edition "r1")]).manager.graphs.get?
      "x86_64_linux").any fun g => (g.atom.packages.get? "lib").any fun p => p.dirty &&
        (((bottled "v").run [(.importChanged ["Formula/lib.yml"], edition "r1")]).manager.index.get?
          "x86_64_linux" "lib").any (·.version = p.version)) = true := by decide +kernel
  obtain ⟨g, found, holds⟩ := (Option.any_eq_true ..).mp reread
  obtain ⟨p, packaged, holds⟩ := (Option.any_eq_true ..).mp holds
  obtain ⟨dirty, holds⟩ := (Bool.and_eq_true ..).mp holds
  obtain ⟨held, covers, same⟩ := (Option.any_eq_true ..).mp holds
  exact ⟨"v", g, p, held, found, packaged, dirty, covers, of_decide_eq_true same⟩

/-! ### Bottles that come in -/

/-- A bottle of the version that a package has makes it clean, unless the index has a newer one. -/
theorem dirty_after_bottle {e : Index.Entry} (found : m.graphs.get? tag = some g)
    (label : g.atom.platform.tag = tag) (packaged : g.atom.packages.get? e.name = some p)
    (current : p.version = e.version) :
    ∃ m' g' p', m.addBottle tag e = .ok m' ∧ m'.graphs.get? tag = some g' ∧
      g'.atom.packages.get? e.name = some p' ∧ p'.version = e.version ∧
      (p'.dirty = true ↔ Index.IsOutdated (m.index.shelf tag) e) := by
  obtain ⟨m', added, -, found'⟩ := addBottle_eq_ok found e
  refine ⟨m', _, _, added, found', (Graph.get?_clean ..).trans (congrArg (Option.map _) packaged),
    current, ?_⟩
  obtain ⟨held, offered, same⟩ := Index.version_offer (m.index.shelf tag) e
  have covered : Graph.isCovered (m.index.add tag e) tag e.name p = true ↔
      ¬ Index.IsOutdated (m.index.shelf tag) e := by
    rw [Graph.isCovered_iff, Index.get?_add_self, offered, current, ← same]
    simp
  rw [label, Bool.not_eq_true', ← Bool.not_eq_true, covered, not_not]

def lonePackage : Graph where
  tap := ⟨"/tap"⟩
  atom.platform := .host
  atom.packages := .ofList [("app", { name := "app", version := "1.0", dirty := true })]

def shelved (version : String) : Manager where
  platforms := [.host]
  graphs := .ofList [("x86_64_linux", lonePackage)]
  index := ({} : Index).add "x86_64_linux" { name := "app", version }

theorem shelved_clean_after_bottle : ∃ m' g' p',
    (shelved "0.9").addBottle "x86_64_linux" { name := "app", version := "1.0" } = .ok m' ∧
      m'.graphs.get? "x86_64_linux" = some g' ∧ g'.atom.packages.get? "app" = some p' ∧
      p'.version = "1.0" ∧ p'.dirty = false := by
  have newest : ¬ Index.IsOutdated ((shelved "0.9").index.shelf "x86_64_linux")
      { name := "app", version := "1.0" } := by decide
  have found : (shelved "0.9").graphs.get? "x86_64_linux" = some lonePackage := rfl
  have packaged : lonePackage.atom.packages.get? "app" =
      some { name := "app", version := "1.0", dirty := true } := rfl
  obtain ⟨m', g', p', added, found, packaged, version, dirty⟩ :=
    dirty_after_bottle (e := { name := "app", version := "1.0" }) found (by decide) packaged rfl
  exact ⟨m', g', p', added, found, packaged, version, by simpa [newest] using dirty⟩

/-- A bottle that comes after a newer one leaves its package dirty. -/
theorem shelved_dirty_after_bottle :
    ((((shelved "2.0").addBottle "x86_64_linux" { name := "app", version := "1.0" }).toOption.bind
      fun m => m.graphs.get? "x86_64_linux").bind fun g => g.atom.packages.get? "app").map
        (fun p => (p.version, p.dirty)) = some ("1.0", true) := by
  decide

end Manager

end Taproom
