import Taproom.Graph.Basic
import Taproom.Proofs.Order

/-!
The orders of a graph. An order holds exactly the closure of its roots along the kinds of edges
that were asked for, and there is one unless something in that closure forbids it.
-/

namespace Taproom

/-- `d` is a dependency of one of the kinds; no kinds stand for build and run. -/
def Package.DependsOn (p : Package) (kinds : List String) (d : String) : Prop :=
  (kinds = [] ∨ "build" ∈ kinds) ∧ p.build.contains d ∨
    (kinds = [] ∨ "run" ∈ kinds) ∧ p.run.contains d ∨
    "test" ∈ kinds ∧ p.test.contains d

theorem Package.mem_ofKind (p : Package) (kind d : String) :
    d ∈ (p.ofKind kind).toList ↔
      kind = "build" ∧ p.build.contains d ∨ kind = "run" ∧ p.run.contains d ∨
        kind = "test" ∧ p.test.contains d := by
  have blank : d ∉ Names.toList ({} : Names) := List.not_mem_nil
  simp only [Names.contains_iff]
  unfold ofKind
  split
  · simp_all
  · split
    · simp_all
    · split
      · simp_all
      · simp_all

theorem Package.mem_edges (p : Package) (kinds : List String) (d : String) :
    d ∈ p.edges kinds ↔ p.DependsOn kinds d := by
  simp only [edges, Names.mem_toList_ofList, List.mem_flatMap, mem_ofKind, DependsOn]
  cases kinds with
  | nil => simp [usualKinds]
  | cons kind rest =>
    simp only [List.isEmpty_cons, Bool.false_eq_true, ↓reduceIte, reduceCtorEq, false_or,
      and_or_left, exists_or, ← and_assoc, exists_and_right, exists_eq_right]

namespace Graph

/-- The packages of a graph, with the dependencies of the kinds that are chosen for each. -/
def web (g : Graph) (kinds : String → List String) : Web where
  Knows n := g.atom.packages.contains n
  Needs n d := ∃ p, g.atom.packages.get? n = some p ∧ p.DependsOn (kinds n) d
  knows_of_needs := by
    rintro n d ⟨p, found, -⟩
    rw [Dict.contains, found, Option.isSome_some]

theorem edgesBy_web (g : Graph) (kinds : String → List String) :
    (g.edgesBy kinds).web = g.web kinds := by
  ext n
  · simp only [Order.Edges.web, edgesBy, web, Dict.contains, Option.isSome_map]
  · rename_i d
    simp only [Order.Edges.web, edgesBy, web, Option.map_eq_some_iff]
    constructor
    · rintro ⟨deps, ⟨p, found, rfl⟩, member⟩
      exact ⟨p, found, (p.mem_edges (kinds n) d).mp member⟩
    · rintro ⟨p, found, need⟩
      exact ⟨_, ⟨p, found, rfl⟩, (p.mem_edges (kinds n) d).mpr need⟩

theorem orderBy_isOrder {g : Graph} {roots names : List String} {kinds : String → List String}
    (success : g.orderBy roots kinds = .ok names) :
    (g.web kinds).IsOrder (roots.map g.canonicalName) names := by
  rw [← edgesBy_web]
  exact Order.order_isOrder success

theorem within_size (g : Graph) (kinds : String → List String) :
    (g.edgesBy kinds).Within g.atom.packages.size := by
  intro l distinct known
  rw [edgesBy_web] at known
  exact g.atom.packages.length_le_size distinct known

theorem orderBy_explained {g : Graph} {roots : List String} {kinds : String → List String}
    {fault : Fault} (failed : g.orderBy roots kinds = .error fault) :
    (g.web kinds).Explains (roots.map g.canonicalName) fault := by
  rw [← edgesBy_web]
  exact Order.order_explained (g.within_size kinds) failed

theorem orderBy_ok_iff (g : Graph) (roots : List String) (kinds : String → List String) :
    (∃ names, g.orderBy roots kinds = .ok names) ↔
      (g.web kinds).Orderable (roots.map g.canonicalName) := by
  constructor
  · rintro ⟨names, success⟩
    exact (orderBy_isOrder success).orderable
  · intro orderable
    cases outcome : g.orderBy roots kinds with
    | ok names => exact ⟨names, rfl⟩
    | error fault => exact absurd orderable (orderBy_explained outcome).not_orderable

/-- An order is the closure of its roots, each package once and after its dependencies. -/
theorem order_lists_closure (g : Graph) (roots kinds names : List String)
    (success : g.order roots kinds = .ok names) :
    (g.web fun _ => kinds).IsOrder (roots.map g.canonicalName) names :=
  orderBy_isOrder success

/-- An application with an alias, which is built with one package and runs with two others that
share a dependency. -/
def diamond : Graph where
  tap := ⟨"tap"⟩
  atom := {
    platform := ⟨"x86_64", "linux"⟩
    packages := .ofList [
      ("app", { name := "app", build := .ofList ["make"], run := .ofList ["lib", "ssl"] }),
      ("lib", { name := "lib", run := .ofList ["zlib"] }),
      ("make", { name := "make" }),
      ("ssl", { name := "ssl", run := .ofList ["zlib"] }),
      ("zlib", { name := "zlib" })]
    aliases := .ofList [("application", "app")] }

theorem diamond_order_lists_closure :
    diamond.order ["ssl", "core/application"] [] = .ok ["zlib", "lib", "make", "ssl", "app"] ∧
      (diamond.web fun _ => []).IsOrder (["ssl", "core/application"].map diamond.canonicalName)
        ["zlib", "lib", "make", "ssl", "app"] := by
  have ordered : diamond.order ["ssl", "core/application"] [] =
      .ok ["zlib", "lib", "make", "ssl", "app"] := by cbv
  exact ⟨ordered, order_lists_closure diamond _ _ _ ordered⟩

/-- There is an order exactly if the closure of the roots is complete and has no cycle, and
otherwise the fault is really there. -/
theorem order_ok_iff_orderable (g : Graph) (roots kinds : List String) :
    ((∃ names, g.order roots kinds = .ok names) ↔
      (g.web fun _ => kinds).Orderable (roots.map g.canonicalName)) ∧
    ∀ fault, g.order roots kinds = .error fault →
      (g.web fun _ => kinds).Explains (roots.map g.canonicalName) fault :=
  ⟨g.orderBy_ok_iff roots fun _ => kinds, fun _ failed => orderBy_explained failed⟩

/-- A package that runs with one of two that need each other. -/
def ring : Graph where
  tap := ⟨"tap"⟩
  atom := {
    platform := ⟨"x86_64", "linux"⟩
    packages := .ofList [
      ("cli", { name := "cli", run := .ofList ["core"] }),
      ("core", { name := "core", run := .ofList ["plugin"] }),
      ("plugin", { name := "plugin", build := .ofList ["core"] })] }

theorem ring_order_explained :
    ring.order ["cli"] [] = .error (.cycle ["core", "plugin", "core"]) ∧
      (ring.web fun _ => []).Explains (["cli"].map ring.canonicalName)
        (.cycle ["core", "plugin", "core"]) := by
  have failed : ring.order ["cli"] [] = .error (.cycle ["core", "plugin", "core"]) := by cbv
  exact ⟨failed, (order_ok_iff_orderable ring ["cli"] []).2 _ failed⟩

end Graph

end Taproom
