import Mathlib.Data.List.Chain
import Mathlib.Logic.Relation
import Taproom.Fault

/-!
What orders of packages are about: the packages that others need, directly or through others,
cycles among them, and lists in which everything comes after what it needs.
-/

namespace Taproom

open Relation (ReflTransGen TransGen)

theorem split_snoc {α : Type} {l before after : List α} {a b : α}
    (split : l ++ [a] = before ++ b :: after) :
    l = before ∧ a = b ∨ ∃ rest, l = before ++ b :: rest := by
  rcases List.eq_nil_or_concat' after with rfl | ⟨rest, last, rfl⟩
  · exact Or.inl (List.append_singleton_inj.mp split)
  · rw [← List.cons_append, ← List.append_assoc] at split
    exact Or.inr ⟨rest, (List.append_inj' split rfl).1⟩

/-- Which packages are known and which of them need what. What is needed may be unknown. -/
@[ext] structure Web where
  Knows : String → Prop
  Needs : String → String → Prop
  knows_of_needs : ∀ {n d}, Needs n d → Knows n

namespace Web

/-- `n` is one of the roots, or one of them needs it directly or through others. -/
def Reaches (w : Web) (roots : List String) (n : String) : Prop :=
  ∃ root ∈ roots, ReflTransGen w.Needs root n

/-- A path from need to need that comes back to where it began and meets nothing else twice. -/
structure Cycle (w : Web) (path : List String) : Prop where
  long : 2 ≤ path.length
  closed : path.head? = path.getLast?
  distinct : path.dropLast.Nodup
  linked : path.IsChain w.Needs

/-- Everything in the list is known and comes after all that it needs. -/
def Settled (w : Web) (done : List String) : Prop :=
  ∀ before n after, done = before ++ n :: after → w.Knows n ∧ ∀ d, w.Needs n d → d ∈ before

/-- The list holds what the roots reach, each package once and after all that it needs. -/
structure IsOrder (w : Web) (roots names : List String) : Prop where
  distinct : names.Nodup
  complete : ∀ n, n ∈ names ↔ w.Reaches roots n
  settled : w.Settled names

/-- What the roots reach is all known, and nothing of it needs itself. -/
structure Orderable (w : Web) (roots : List String) : Prop where
  rooted : ∀ root ∈ roots, w.Knows root
  closed : ∀ n d, w.Reaches roots n → w.Needs n d → w.Knows d
  acyclic : ∀ n, w.Reaches roots n → ¬ TransGen w.Needs n n

/-- The fault is one that stands in the way of an order, and it is really there. -/
def Explains (w : Web) (roots : List String) : Fault → Prop
  | .cycle path => w.Cycle path ∧ ∀ n ∈ path, w.Knows n ∧ w.Reaches roots n
  | .missingDependency n d => w.Knows n ∧ w.Reaches roots n ∧ w.Needs n d ∧ ¬ w.Knows d
  | .during n .noSuchFormula => n ∈ roots ∧ ¬ w.Knows n
  | _ => False

variable {w : Web} {roots : List String} {n d : String}

theorem Reaches.root (member : n ∈ roots) : w.Reaches roots n := ⟨n, member, .refl⟩

theorem Reaches.tail (reached : w.Reaches roots n) (need : w.Needs n d) : w.Reaches roots d := by
  obtain ⟨root, member, path⟩ := reached
  exact ⟨root, member, path.tail need⟩

namespace Settled

variable {done : List String}

theorem nil : w.Settled [] := by
  intro before n after split
  exact absurd split (by simp)

variable (settled : w.Settled done)

include settled

theorem snoc (known : w.Knows n)
    (needed : ∀ d, w.Needs n d → d ∈ done) : w.Settled (done ++ [n]) := by
  intro before m after split
  rcases split_snoc split with ⟨rfl, rfl⟩ | ⟨rest, split⟩
  · exact ⟨known, needed⟩
  · exact settled before m rest split

theorem knows (member : n ∈ done) : w.Knows n := by
  obtain ⟨before, after, split⟩ := List.append_of_mem member
  exact (settled before n after split).1

theorem mem_of_needs (member : n ∈ done) (need : w.Needs n d) : d ∈ done := by
  obtain ⟨before, after, rfl⟩ := List.append_of_mem member
  exact List.mem_append_left _ ((settled before n after rfl).2 d need)

theorem mem_of_path (member : n ∈ done) (path : ReflTransGen w.Needs n d) : d ∈ done := by
  induction path with
  | refl => exact member
  | tail _ need inside => exact settled.mem_of_needs inside need

theorem idxOf_lt (member : n ∈ done) (need : w.Needs n d) : done.idxOf d < done.idxOf n := by
  obtain ⟨before, after, rfl, first⟩ := List.eq_append_cons_of_mem member
  have earlier := (settled before n after rfl).2 d need
  rw [List.idxOf_append_of_mem earlier, List.idxOf_append_of_notMem first, List.idxOf_cons_self]
  exact List.idxOf_lt_length_of_mem earlier

/-- Positions in a settled list fall along every path, so that no path comes back. -/
theorem acyclic (member : n ∈ done) : ¬ TransGen w.Needs n n := by
  have falls : ∀ m, TransGen w.Needs n m → m ∈ done ∧ done.idxOf m < done.idxOf n := by
    intro m path
    induction path with
    | single need => exact ⟨settled.mem_of_needs member need, settled.idxOf_lt member need⟩
    | tail _ need ih =>
      have step := settled.idxOf_lt ih.1 need
      exact ⟨settled.mem_of_needs ih.1 need, by omega⟩
  intro path
  exact Nat.lt_irrefl _ (falls n path).2

theorem mem_of_reaches (inside : ∀ root ∈ roots, root ∈ done)
    (reached : w.Reaches roots n) : n ∈ done := by
  obtain ⟨root, member, path⟩ := reached
  exact settled.mem_of_path (inside root member) path

theorem orderable (inside : ∀ root ∈ roots, root ∈ done) :
    w.Orderable roots where
  rooted root member := settled.knows (inside root member)
  closed _ _ reached need := settled.knows (settled.mem_of_reaches inside (reached.tail need))
  acyclic _ reached := settled.acyclic (settled.mem_of_reaches inside reached)

end Settled

theorem IsOrder.orderable {names : List String} (order : w.IsOrder roots names) :
    w.Orderable roots :=
  order.settled.orderable fun root member => (order.complete root).mpr (.root member)

theorem Cycle.transGen {path : List String} (cycle : w.Cycle path) :
    ∃ n ∈ path, TransGen w.Needs n n := by
  obtain ⟨long, closed, -, linked⟩ := cycle
  match path, long with
  | n :: next :: rest, _ =>
    obtain ⟨need, linked⟩ := List.isChain_cons_cons.mp linked
    have onward := List.relationReflTransGen_of_exists_isChain_cons rest linked rfl
    have last : n = (next :: rest).getLast (by simp) := by
      simpa [List.getLast?_cons_cons, List.getLast?_eq_some_getLast] using closed
    exact ⟨n, List.mem_cons_self, TransGen.head' need (last ▸ onward)⟩

theorem Explains.not_orderable {fault : Fault} (explained : w.Explains roots fault) :
    ¬ w.Orderable roots := by
  intro orderable
  unfold Explains at explained
  split at explained
  · obtain ⟨cycle, reached⟩ := explained
    obtain ⟨n, member, back⟩ := cycle.transGen
    exact orderable.acyclic n (reached n member).2 back
  · obtain ⟨-, reached, need, unknown⟩ := explained
    exact unknown (orderable.closed _ _ reached need)
  · exact explained.2 (orderable.rooted _ explained.1)
  · exact explained

end Web

end Taproom
