import Taproom.Proofs.Dispatch
import Taproom.Proofs.Operations

/-!
What a failure keeps from being built. A package that is marked as failed is no longer offered, and
nothing else changes: what waits for it was not offered before either, and what needs it only by way
of packages that are clean stays on offer.
-/

namespace Taproom

open Relation (ReflTransGen)

namespace Atom

/-- `n` waits for a package that is `b` or needs it, directly or not. -/
def WaitsAbove (a : Atom) (n b : String) : Prop := ∃ d, a.WaitsFor n d ∧ ReflTransGen a.Needs d b

theorem mem_dispatchable_iff (a : Atom) (shown : String) :
    shown ∈ a.dispatchable ↔ ∃ n p, a.packages.get? n = some p ∧ p.name = shown ∧ a.IsOffered n := by
  rw [mem_dispatchable]
  constructor
  · rintro ⟨n, p, found, offers, named⟩
    exact ⟨n, p, found, named, p, found, offers⟩
  · rintro ⟨n, p, found, named, q, same, offers⟩
    rw [found, Option.some.injEq] at same
    exact ⟨n, p, found, same ▸ offers, named⟩

theorem mem_dispatchable_iff_of_named {a : Atom}
    (named : ∀ n p, a.packages.get? n = some p → p.name = n) (n : String) :
    n ∈ a.dispatchable ↔ a.IsOffered n := by
  rw [mem_dispatchable_iff]
  constructor
  · rintro ⟨key, p, found, rfl, offered⟩
    rwa [named key p found]
  · rintro ⟨p, found, offers⟩
    exact ⟨n, p, found, named n p found, p, found, offers⟩

theorem not_isOffered_of_waitsFor {a : Atom} {n d : String} (waits : a.WaitsFor n d) :
    ¬ a.IsOffered n := by
  intro offered
  exact (((isOffered_iff a n).mp offered).2.2 d waits.1).2 waits.2

end Atom

/-! ### One graph -/

namespace Graph

variable {g g' : Graph} {name n : String} {failed : Bool}

section

variable (marked : g.setFailed name failed = .ok g')

include marked

theorem setFailed_cases :
    ∃ p, g.atom.packages.get? (g.canonicalName name) = some p ∧
      g' = { g with atom := { g.atom with
        packages := g.atom.packages.insert (g.canonicalName name) { p with failed } } } := by
  rw [setFailed] at marked
  split at marked
  · rename_i p found
    exact ⟨p, found, (Except.ok.inj marked).symm⟩
  · cases marked

theorem get?_packages_setFailed (n : String) :
    g'.atom.packages.get? n = (g.atom.packages.get? n).map fun p =>
      if n = g.canonicalName name then { p with failed } else p := by
  obtain ⟨p, found, rfl⟩ := setFailed_cases marked
  by_cases same : n = g.canonicalName name
  · subst same
    rw [found, Option.map_some, if_pos rfl]
    exact Dict.get?_insert_self ..
  · have other : (g.atom.packages.insert (g.canonicalName name) { p with failed }).get? n =
        g.atom.packages.get? n := Dict.get?_insert_of_ne _ same _
    simp [other, same]

theorem needs_setFailed :
    g'.atom.Needs = g.atom.Needs := by
  ext n d
  simp only [Atom.Needs, get?_packages_setFailed marked, Option.map_eq_some_iff]
  constructor
  · rintro ⟨_, ⟨p, found, rfl⟩, need⟩
    refine ⟨p, found, ?_⟩
    split at need <;> exact need
  · rintro ⟨p, found, need⟩
    refine ⟨_, ⟨p, found, rfl⟩, ?_⟩
    split <;> exact need

theorem isDirty_setFailed :
    g'.atom.IsDirty = g.atom.IsDirty := by
  ext n
  simp only [Atom.IsDirty, get?_packages_setFailed marked, Option.map_eq_some_iff]
  constructor
  · rintro ⟨_, ⟨p, found, rfl⟩, dirty⟩
    refine ⟨p, found, ?_⟩
    split at dirty <;> exact dirty
  · rintro ⟨p, found, dirty⟩
    refine ⟨_, ⟨p, found, rfl⟩, ?_⟩
    split <;> exact dirty

theorem contains_setFailed (n : String) :
    g'.atom.packages.contains n = g.atom.packages.contains n := by
  simp only [Dict.contains, get?_packages_setFailed marked, Option.isSome_map]

end

theorem isHeld_setFailed_true (marked : g.setFailed name true = .ok g') (n : String) :
    g'.atom.IsHeld n ↔ n = g.canonicalName name ∨ g.atom.IsHeld n := by
  obtain ⟨p, present, -⟩ := setFailed_cases marked
  simp only [Atom.IsHeld, get?_packages_setFailed marked, Option.map_eq_some_iff]
  by_cases same : n = g.canonicalName name
  · simp only [same, present, if_true, true_or, iff_true]
    exact ⟨_, ⟨p, rfl, rfl⟩, Or.inl rfl⟩
  · simp [same]

theorem named_setFailed (marked : g.setFailed name failed = .ok g')
    (named : ∀ n p, g.atom.packages.get? n = some p → p.name = n) :
    ∀ n p, g'.atom.packages.get? n = some p → p.name = n := by
  intro n p found
  rw [get?_packages_setFailed marked, Option.map_eq_some_iff] at found
  obtain ⟨before, found, rfl⟩ := found
  rw [← named n before found]
  split <;> rfl

theorem isOffered_setFailed_true (marked : g.setFailed name true = .ok g') (n : String) :
    g'.atom.IsOffered n ↔ g.atom.IsOffered n ∧ n ≠ g.canonicalName name := by
  simp only [Atom.isOffered_iff, isDirty_setFailed marked, isHeld_setFailed_true marked,
    needs_setFailed marked, contains_setFailed marked, not_or]
  constructor
  · rintro ⟨dirty, ⟨other, free⟩, clean⟩
    exact ⟨⟨dirty, free, clean⟩, other⟩
  · rintro ⟨⟨dirty, free, clean⟩, other⟩
    exact ⟨dirty, ⟨other, free⟩, clean⟩

end Graph

/-! ### All graphs -/

namespace Manager

variable {m m' : Manager} {tag name : String} {g : Graph}

def Labelled (m : Manager) : Prop :=
  ∀ tag g, m.graphs.get? tag = some g → g.atom.platform.tag = tag

theorem dispatchable_get? (labelled : m.Labelled) (found : m.graphs.get? tag = some g) :
    m.dispatchable.get? tag = some g.atom.dispatchable := by
  have listed : (m.graphs.values.map (·.atom)).map (fun a => (a.platform.tag, a.dispatchable)) =
      m.graphs.toList.map fun e => (e.1, e.2.atom.dispatchable) := by
    rw [Dict.values, List.map_map, List.map_map]
    refine List.map_congr_left fun e member => ?_
    have label := labelled e.1 e.2 ((Dict.get?_eq_some_iff ..).mpr member)
    simp only [Function.comp_apply, label]
  rw [dispatchable, dispatchableOf, listed, Dict.get?_ofList_eq_some_iff]
  · exact List.mem_map.mpr ⟨(tag, g), (Dict.get?_eq_some_iff ..).mp found, rfl⟩
  · exact List.pairwise_map.mpr m.graphs.toList_distinct

theorem setFailed_eq_ok {failed : Bool} (found : m.graphs.get? tag = some g)
    (marked : m.setFailed tag name failed = .ok m') :
    ∃ g', g.setFailed name failed = .ok g' ∧ m'.graphs = m.graphs.insert tag g' := by
  rw [setFailed, graph_of_get? found] at marked
  cases outcome : g.setFailed name failed with
  | error f =>
    simp only [bind, Except.bind, outcome] at marked
    cases marked
  | ok g' =>
    simp only [bind, Except.bind, outcome] at marked
    cases marked
    exact ⟨g', rfl, rfl⟩

theorem Labelled.insert (labelled : m.Labelled) {g' : Graph} (label : g'.atom.platform.tag = tag)
    (graphs : m'.graphs = m.graphs.insert tag g') : m'.Labelled := by
  intro other h found
  rw [graphs] at found
  by_cases same : other = tag
  · rw [same, Dict.get?_insert_self, Option.some.injEq] at found
    rw [← found, same, label]
  · rw [Dict.get?_insert_of_ne _ same] at found
    exact labelled other h found

/-- After a failure neither the package nor anything that waits above it is on offer. Nothing but the
package itself is taken away, and what is listed for the platform are the names of what is on offer. -/
theorem failure_blocks_waiting (labelled : m.Labelled) (found : m.graphs.get? tag = some g)
    (marked : m.setFailed tag name true = .ok m') :
    ∃ g' listed, m'.graphs.get? tag = some g' ∧ m'.dispatchable.get? tag = some listed ∧
      (∀ shown, shown ∈ listed ↔
        ∃ n p, g'.atom.packages.get? n = some p ∧ p.name = shown ∧ g'.atom.IsOffered n) ∧
      (∀ n, g'.atom.IsOffered n ↔ g.atom.IsOffered n ∧ n ≠ g.canonicalName name) ∧
      (∀ n, n = g.canonicalName name ∨ g.atom.WaitsAbove n (g.canonicalName name) →
        ¬ g'.atom.IsOffered n) ∧
      ((∀ n p, g.atom.packages.get? n = some p → p.name = n) →
        ∀ n, n ∈ listed ↔ g'.atom.IsOffered n) := by
  obtain ⟨g', marked', graphs⟩ := setFailed_eq_ok found marked
  have label : g'.atom.platform.tag = tag := by
    rw [(setFailed_frame marked').1, labelled tag g found]
  have found' : m'.graphs.get? tag = some g' := by rw [graphs, Dict.get?_insert_self]
  refine ⟨g', _, found', dispatchable_get? (labelled.insert label graphs) found',
    Atom.mem_dispatchable_iff _, Graph.isOffered_setFailed_true marked', ?_, ?_⟩
  · intro n blocked offered
    have before := (Graph.isOffered_setFailed_true marked' n).mp offered
    rcases blocked with same | ⟨d, waits, -⟩
    · exact before.2 same
    · exact Atom.not_isOffered_of_waitsFor waits before.1
  · intro named n
    exact Atom.mem_dispatchable_iff_of_named (Graph.named_setFailed marked' named) n

/-! ### A package that is clean between -/

/-- An application and a tool over a library that needs building, with a clean package between the tool
and the library. -/
def stand : Atom where
  platform := ⟨"x86_64", "linux"⟩
  packages := .ofList [
    ("app", { name := "app", dirty := true, run := .ofList ["lib"] }),
    ("glue", { name := "glue", build := .ofList ["zlib"] }),
    ("lib", { name := "lib", dirty := true, run := .ofList ["zlib"] }),
    ("tool", { name := "tool", dirty := true, run := .ofList ["glue"] }),
    ("zlib", { name := "zlib", dirty := true })]

def shop : Manager where
  platforms := [⟨"x86_64", "linux"⟩]
  graphs := .ofList [("x86_64_linux", ⟨⟨"/tap"⟩, stand⟩)]

theorem shop_graph : shop.graphs.get? "x86_64_linux" = some ⟨⟨"/tap"⟩, stand⟩ := by rfl

theorem shop_labelled : shop.Labelled := by
  intro tag g found
  have all : shop.graphs.toList = [("x86_64_linux", ⟨⟨"/tap"⟩, stand⟩)] := by rfl
  rw [Dict.get?_eq_some_iff, all, List.mem_singleton] at found
  cases found
  rfl

theorem shop_setFailed : ∃ m', shop.setFailed "x86_64_linux" "zlib" true = .ok m' ∧
    m'.dispatchable.get? "x86_64_linux" = some ["tool"] := by
  have holds : ((shop.setFailed "x86_64_linux" "zlib" true).toOption.any fun m' =>
      m'.dispatchable.get? "x86_64_linux" = some ["tool"]) = true := by decide +kernel
  obtain ⟨m', told, kept⟩ := (Option.any_eq_true ..).mp holds
  exact ⟨m', eq_ok_of_toOption told, of_decide_eq_true kept⟩

theorem stand_needs {n d : String}
    (need : ((stand.packages.get? n).any fun p => p.needs.contains d) = true) : stand.Needs n d := by
  obtain ⟨p, found, listed⟩ := (Option.any_eq_true ..).mp need
  exact ⟨p, found, (Atom.mem_needs p d).mp (List.contains_iff_mem.mp listed)⟩

theorem stand_dirty {n : String} (dirty : ((stand.packages.get? n).any (·.dirty)) = true) :
    stand.IsDirty n :=
  (Option.any_eq_true ..).mp dirty

/-- The failure of the library blocks what waits for it, through other packages too. -/
theorem shop_failure_blocks_waiting : ∃ m' listed,
    shop.setFailed "x86_64_linux" "zlib" true = .ok m' ∧
      m'.dispatchable.get? "x86_64_linux" = some listed ∧
      "zlib" ∉ listed ∧ "lib" ∉ listed ∧ "app" ∉ listed := by
  obtain ⟨m', marked, -⟩ := shop_setFailed
  obtain ⟨g', listed, -, answer, -, -, blocked, names⟩ :=
    failure_blocks_waiting shop_labelled shop_graph marked
  have own : ∀ n p, stand.packages.get? n = some p → p.name = n := by
    have all : ∀ e ∈ stand.packages.toList, e.2.name = e.1 := by decide
    exact fun n p found => all (n, p) ((Dict.get?_eq_some_iff ..).mp found)
  have library : stand.WaitsFor "lib" "zlib" := ⟨stand_needs (by decide), stand_dirty (by decide)⟩
  have application : stand.WaitsFor "app" "lib" := ⟨stand_needs (by decide), stand_dirty (by decide)⟩
  refine ⟨m', listed, marked, answer, ?_, ?_, ?_⟩
  · rw [names own]
    exact blocked _ (Or.inl rfl)
  · rw [names own]
    exact blocked _ (Or.inr ⟨_, library, .refl⟩)
  · rw [names own]
    exact blocked _ (Or.inr ⟨_, application, .single library.1⟩)

/-- The tool needs a package that needs the failed one, and is on offer all the same. -/
theorem failure_passes_clean_package : ∃ m' listed,
    shop.setFailed "x86_64_linux" "zlib" true = .ok m' ∧
      m'.dispatchable.get? "x86_64_linux" = some listed ∧
      stand.IsDirty "zlib" ∧ ReflTransGen stand.Needs "tool" "zlib" ∧ "tool" ∈ listed := by
  obtain ⟨m', marked, answer⟩ := shop_setFailed
  have path : ReflTransGen stand.Needs "tool" "zlib" :=
    .head (stand_needs (d := "glue") (by decide)) (.single (stand_needs (by decide)))
  exact ⟨m', _, marked, answer, stand_dirty (by decide), path, by simp⟩

end Manager

end Taproom
