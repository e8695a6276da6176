import Taproom.Proofs.Faults

/-!
What a check says of a graph. It looks at the package that each name stands for, so it speaks of the
package of that name only if no alias has taken the name.
-/

namespace Taproom

open Relation (ReflTransGen TransGen)

namespace Web

def Flawed (w : Web) (n : String) : Prop :=
  ∃ m, ReflTransGen w.Needs n m ∧ (¬ w.Knows m ∨ TransGen w.Needs m m)

/-- The packages have numbers, and what a package needs is known and has a smaller one. -/
def Numbered (w : Web) : Prop := ∃ number : String → Nat, ∀ n d, w.Needs n d → w.Knows d ∧ number d < number n

variable {w : Web} {n : String}

theorem not_orderable_iff_flawed : ¬ w.Orderable [n] ↔ w.Flawed n := by
  rw [not_iff_comm]
  simp only [Flawed, not_exists, not_and, not_or, not_not]
  constructor
  · intro whole
    refine ⟨?_, ?_, ?_⟩
    · rintro root member
      rw [List.mem_singleton.mp member]
      exact (whole n .refl).1
    · rintro m d ⟨root, member, path⟩ need
      rw [List.mem_singleton.mp member] at path
      exact (whole d (path.tail need)).1
    · rintro m ⟨root, member, path⟩
      rw [List.mem_singleton.mp member] at path
      exact (whole m path).2
  · intro orderable m path
    have reached : w.Reaches [n] m := ⟨n, List.mem_singleton_self n, path⟩
    refine ⟨?_, orderable.acyclic m reached⟩
    rcases path.cases_tail with rfl | ⟨before, front, need⟩
    · exact orderable.rooted m (List.mem_singleton_self m)
    · exact orderable.closed before m ⟨n, List.mem_singleton_self n, front⟩ need

/-- Numbers fall along every path, so that no path comes back or leads to something unknown. -/
theorem Numbered.not_flawed (numbered : w.Numbered) (known : w.Knows n) : ¬ w.Flawed n := by
  obtain ⟨number, falls⟩ := numbered
  have descends : ∀ {m d}, TransGen w.Needs m d → number d < number m := by
    intro m d path
    induction path with
    | single need => exact (falls _ _ need).2
    | tail _ need ih => exact (falls _ _ need).2.trans ih
  rintro ⟨m, path, unknown | back⟩
  · rcases path.cases_tail with rfl | ⟨before, -, need⟩
    · exact unknown known
    · exact unknown (falls before m need).1
  · exact Nat.lt_irrefl _ (descends back)

end Web

namespace Graph

/-- Packages none of which is flawed have an order, and their places in it number them. -/
theorem numbered_of_not_flawed {g : Graph} {kinds : String → List String}
    (own : ∀ n ∈ g.names, g.canonicalName n = n) (sound : ∀ n ∈ g.names, ¬ (g.web kinds).Flawed n) :
    (g.web kinds).Numbered := by
  have meant : g.names.map g.canonicalName = g.names := by
    rw [List.map_congr_left own, List.map_id']
  have orderable : (g.web kinds).Orderable (g.names.map g.canonicalName) := by
    have each : ∀ n ∈ g.names, (g.web kinds).Orderable [n] := fun n member =>
      not_not.mp (mt Web.not_orderable_iff_flawed.mp (sound n member))
    rw [meant]
    refine ⟨fun n member => (each n member).rooted n (List.mem_singleton_self n), ?_, ?_⟩
    · rintro n d ⟨root, member, path⟩
      exact (each root member).closed n d ⟨root, List.mem_singleton_self root, path⟩
    · rintro n ⟨root, member, path⟩
      exact (each root member).acyclic n ⟨root, List.mem_singleton_self root, path⟩
  obtain ⟨order, ordered⟩ := (g.orderBy_ok_iff g.names kinds).mpr orderable
  have isOrder := orderBy_isOrder ordered
  rw [meant] at isOrder
  refine ⟨order.idxOf, fun n d need => ?_⟩
  have placed : n ∈ order := (isOrder.complete n).mpr
    (.root ((g.atom.packages.contains_iff n).mp ((g.web kinds).knows_of_needs need)))
  exact ⟨isOrder.settled.knows (isOrder.settled.mem_of_needs placed need), isOrder.settled.idxOf_lt placed need⟩

/-- A check finds one fault for each name that stands for a flawed package, in the order of the names.
It notes these and changes nothing else, and a second one finds the same. If every package has its
own name, there is no fault exactly if the packages can be numbered. -/
theorem check_finds_flawed (g : Graph) :
    (∃ faults : List (String × Fault), g.check.1 = faults.map Prod.snd ∧
      faults.Pairwise (fun x y => x.1 < y.1) ∧
      (∀ n, n ∈ faults.map Prod.fst ↔ g.atom.packages.contains n ∧
        (g.web fun _ => Package.allKinds).Flawed (g.canonicalName n)) ∧
      ∀ n, (∀ f, (n, f) ∈ faults →
          (g.web fun _ => Package.allKinds).Explains [g.canonicalName n] f ∧
          g.check.2.atom.bad.get? n = some f.message) ∧
        (n ∉ faults.map Prod.fst → g.check.2.atom.bad.get? n = g.atom.bad.get? n)) ∧
    g.check.2 = { g with atom := { g.atom with bad := g.check.2.atom.bad } } ∧
    g.check.2.check = g.check ∧
    ((∀ n ∈ g.names, g.canonicalName n = n) →
      (g.check.1 = [] ↔ (g.web fun _ => Package.allKinds).Numbered)) := by
  have found : ∀ n, n ∈ g.faults.map Prod.fst ↔ g.atom.packages.contains n ∧
      (g.web fun _ => Package.allKinds).Flawed (g.canonicalName n) := by
    intro n
    rw [← Web.not_orderable_iff_flawed, ← fault?_isSome_iff]
    simp [mem_faults, Option.isSome_iff_exists]
  refine ⟨⟨g.faults, rfl, g.faults_ascending, found, fun n => ⟨fun f member => ⟨?_, ?_⟩, ?_⟩⟩, rfl, ?_, ?_⟩
  · have failed := ((g.mem_faults n f).mp member).2
    rw [fault?] at failed
    split at failed
    · cases failed
    · rename_i why outcome
      cases failed
      exact (order_ok_iff_orderable g [n] Package.allKinds).2 _ outcome
  · exact (g.get?_bad_check n).1 f member
  · exact (g.get?_bad_check n).2
  · have notes : g.check.2.check.2.atom.bad = g.check.2.atom.bad := by
      refine Dict.ext_get? fun n => ?_
      by_cases again : n ∈ g.faults.map Prod.fst
      · obtain ⟨⟨m, f⟩, member, rfl⟩ := List.mem_map.mp again
        rw [(g.check.2.get?_bad_check m).1 f member, (g.get?_bad_check m).1 f member]
      · exact (g.check.2.get?_bad_check n).2 again
    exact Prod.ext rfl (congrArg (fun bad => { g with atom := { g.atom with bad } }) notes)
  · intro own
    have none : g.check.1 = [] ↔ ∀ n ∈ g.names, ¬ (g.web fun _ => Package.allKinds).Flawed n := by
      have empty : g.check.1 = [] ↔ ∀ n, n ∉ g.faults.map Prod.fst := by
        rw [← List.eq_nil_iff_forall_not_mem, List.map_eq_nil_iff]
        exact List.map_eq_nil_iff
      rw [empty]
      refine forall_congr' fun n => ?_
      rw [found, Dict.contains_iff, not_and]
      exact forall_congr' fun member => by rw [own n member]
    rw [none]
    exact ⟨numbered_of_not_flawed own, fun numbered n member =>
      numbered.not_flawed ((g.atom.packages.contains_iff n).mpr member)⟩

/-- An application that needs something unknown, and an alias that takes its name for a library. -/
def hidden : Graph where
  tap := ⟨"tap"⟩
  atom := {
    platform := ⟨"x86_64", "linux"⟩
    packages := .ofList [("app", { name := "app", run := .ofList ["ghost"] }), ("lib", { name := "lib" })]
    aliases := .ofList [("app", "lib")] }

/-- The package is flawed, and a check finds no fault. -/
theorem hidden_passes_check :
    hidden.check.1 = [] ∧ ¬ (hidden.web fun _ => Package.allKinds).Numbered := by
  refine ⟨by cbv, ?_⟩
  rintro ⟨number, falls⟩
  have app : hidden.atom.packages.get? "app" = some { name := "app", run := .ofList ["ghost"] } := by cbv
  have known := (falls "app" "ghost" ⟨_, app, (Package.mem_edges ..).mp (by decide)⟩).1
  exact absurd known (show ¬ hidden.atom.packages.contains "ghost" by decide)

end Graph

end Taproom
