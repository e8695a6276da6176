import Mathlib.Order.Bounds.Basic
import Taproom.Proofs.Graph

/-!
The levels of an order. The level of a package is the length of the longest path of dependencies
that begins at it, whatever kinds of edges are followed for each package.
-/

namespace Taproom

open Relation (TransGen)

/-! ### Longest paths -/

namespace Web

/-- A path of `k` steps from need to need begins at `n`. -/
def HasPath (w : Web) (n : String) (k : Nat) : Prop :=
  ∃ rest : List String, rest.length = k ∧ (n :: rest).IsChain w.Needs

/-- The longest path from need to need that begins at `n` has `k` steps. -/
def Height (w : Web) (n : String) (k : Nat) : Prop := IsGreatest {k | w.HasPath n k} k

variable {w : Web} {n d : String} {i j k : Nat}

theorem HasPath.zero : w.HasPath n 0 := ⟨[], rfl, List.isChain_singleton n⟩

theorem HasPath.cons (need : w.Needs n d) (path : w.HasPath d k) : w.HasPath n (k + 1) := by
  obtain ⟨rest, length, linked⟩ := path
  exact ⟨d :: rest, by rw [List.length_cons, length], List.isChain_cons_cons.mpr ⟨need, linked⟩⟩

theorem HasPath.uncons (path : w.HasPath n (k + 1)) : ∃ d, w.Needs n d ∧ w.HasPath d k := by
  obtain ⟨rest, length, linked⟩ := path
  cases rest with
  | nil => simp at length
  | cons d rest =>
    obtain ⟨need, linked⟩ := List.isChain_cons_cons.mp linked
    exact ⟨d, need, rest, by simpa using length, linked⟩

theorem HasPath.lengthen (onward : TransGen w.Needs n d) (path : w.HasPath d k) :
    ∃ j, k < j ∧ w.HasPath n j := by
  induction onward using TransGen.head_induction_on with
  | single need => exact ⟨k + 1, Nat.lt_succ_self k, .cons need path⟩
  | head need _ ih =>
    obtain ⟨j, longer, path⟩ := ih
    exact ⟨j + 1, by omega, .cons need path⟩

theorem Height.lt_of_transGen (onward : TransGen w.Needs n d) (above : w.Height n i)
    (below : w.Height d j) : j < i := by
  obtain ⟨k, longer, path⟩ := HasPath.lengthen onward below.1
  have bound : k ≤ i := above.2 path
  omega

theorem Height.of_needs {depth : String → Nat} (each : ∀ d, w.Needs n d → w.Height d (depth d))
    (bound : ∀ d, w.Needs n d → depth d + 1 ≤ k)
    (attained : k = 0 ∨ ∃ d, w.Needs n d ∧ k = depth d + 1) : w.Height n k := by
  constructor
  · rcases attained with rfl | ⟨d, need, rfl⟩
    · exact HasPath.zero
    · exact HasPath.cons need (each d need).1
  · intro j path
    cases j with
    | zero => exact Nat.zero_le k
    | succ j =>
      obtain ⟨d, need, path⟩ := HasPath.uncons path
      have below : j ≤ depth d := (each d need).2 path
      have above := bound d need
      omega

end Web

/-! ### Depths -/

namespace Order

theorem foldl_max (f : String → Nat) (deps : List String) (start : Nat) :
    start ≤ deps.foldl (fun top d => max top (f d)) start ∧
      (∀ d ∈ deps, f d ≤ deps.foldl (fun top d => max top (f d)) start) ∧
      (deps.foldl (fun top d => max top (f d)) start = start ∨
        ∃ d ∈ deps, deps.foldl (fun top d => max top (f d)) start = f d) := by
  induction deps generalizing start with
  | nil => simp
  | cons first deps ih =>
    obtain ⟨lower, upper, attained⟩ := ih (max start (f first))
    rw [List.foldl_cons]
    refine ⟨by omega, ?_, ?_⟩
    · intro d member
      rcases List.mem_cons.mp member with rfl | member
      · omega
      · exact upper d member
    · rcases attained with same | ⟨d, member, same⟩
      · by_cases left : f first ≤ start
        · exact Or.inl (by omega)
        · exact Or.inr ⟨first, List.mem_cons_self, by omega⟩
      · exact Or.inr ⟨d, List.mem_cons_of_mem _ member, same⟩

theorem depthAbove_bound (depth : Dict String Nat) {deps : List String} {d : String}
    (member : d ∈ deps) : depth.getD d 0 + 1 ≤ depthAbove depth deps :=
  (foldl_max (fun d => depth.getD d 0 + 1) deps 0).2.1 d member

theorem depthAbove_attained (depth : Dict String Nat) (deps : List String) :
    depthAbove depth deps = 0 ∨ ∃ d ∈ deps, depthAbove depth deps = depth.getD d 0 + 1 :=
  (foldl_max (fun d => depth.getD d 0 + 1) deps 0).2.2

/-! ### Levels -/

def OnLevel (levels : List (List String)) (i : Nat) (n : String) : Prop :=
  ∃ level, levels[i]? = some level ∧ n ∈ level

theorem OnLevel.lt_length {levels : List (List String)} {i : Nat} {n : String}
    (placed : OnLevel levels i n) : i < levels.length := by
  obtain ⟨level, found, -⟩ := placed
  exact (List.getElem?_eq_some_iff.mp found).1

theorem onLevel_modify (levels : List (List String)) {depth : Nat} (name : String)
    (within : depth < levels.length) (i : Nat) (n : String) :
    OnLevel (levels.modify depth (· ++ [name])) i n ↔
      OnLevel levels i n ∨ i = depth ∧ n = name := by
  unfold OnLevel
  by_cases same : depth = i
  · subst same
    simp [within]
  · rw [List.getElem?_modify_ne _ _ same]
    have other : i ≠ depth := Ne.symm same
    simp only [other, false_and, or_false]

theorem onLevel_append (levels : List (List String)) (name : String) (i : Nat) (n : String) :
    OnLevel (levels ++ [[name]]) i n ↔ OnLevel levels i n ∨ i = levels.length ∧ n = name := by
  unfold OnLevel
  rcases Nat.lt_trichotomy i levels.length with below | rfl | beyond
  · rw [List.getElem?_append_left below]
    have other : i ≠ levels.length := by omega
    simp only [other, false_and, or_false]
  · simp
  · rw [List.getElem?_eq_none (by simp; omega), List.getElem?_eq_none (by omega)]
    have other : i ≠ levels.length := by omega
    simp only [other, false_and, or_false]

theorem place?_spec (levels : List (List String)) {depth : Nat} (name : String)
    (fits : depth ≤ levels.length) :
    ∃ placed, place? levels depth name = some placed ∧
      (∀ i n, OnLevel placed i n ↔ OnLevel levels i n ∨ i = depth ∧ n = name) ∧
      placed.flatten.Perm (levels.flatten ++ [name]) ∧
      ([] ∉ levels → [] ∉ placed) := by
  unfold place?
  by_cases within : depth < levels.length
  · refine ⟨_, if_pos within, onLevel_modify levels name within, ?_⟩
    obtain ⟨front, level, back, rfl, -, changed⟩ := List.exists_of_modify (· ++ [name]) within
    rw [changed]
    constructor
    · simp only [List.flatten_append, List.flatten_cons, List.append_assoc]
      exact (List.perm_append_comm.append_left level).append_left front.flatten
    · simp only [List.mem_append, List.mem_cons, List.nil_eq, List.append_eq_nil_iff,
        reduceCtorEq, and_false, false_or, not_or]
      exact fun absent => ⟨absent.1, absent.2.2⟩
  · obtain rfl : depth = levels.length := by omega
    refine ⟨_, by rw [if_neg within, if_pos rfl], onLevel_append levels name, ?_, ?_⟩
    · simp
    · simp

/-- What holds of the levels once the packages in `seen` are on them. -/
structure Layered (edges : Edges) (seen : List String) (l : Layers) : Prop where
  height : ∀ n ∈ seen, edges.web.Height n (l.depth.getD n 0)
  placed : ∀ i n, OnLevel l.levels i n ↔ n ∈ seen ∧ l.depth.getD n 0 = i
  perm : l.levels.flatten.Perm seen
  filled : [] ∉ l.levels

theorem Layered.nil (edges : Edges) : Layered edges [] {} := by
  refine ⟨?_, ?_, List.Perm.refl _, List.not_mem_nil⟩
  · intro n member
    cases member
  · intro i n
    simp [OnLevel]

/-- The next package of an order is at most one level above those before it, since all that it
needs is among them. -/
theorem Layered.add? {edges : Edges} {seen : List String} {l : Layers} {name : String}
    (layered : Layered edges seen l) (fresh : name ∉ seen) (known : edges.web.Knows name)
    (needed : ∀ d, edges.web.Needs name d → d ∈ seen) :
    ∃ l', l.add? edges name = some l' ∧ Layered edges (seen ++ [name]) l' := by
  obtain ⟨deps, found⟩ := Option.isSome_iff_exists.mp known
  have inSeen : ∀ d ∈ deps, d ∈ seen := fun d member => needed d ⟨deps, found, member⟩
  have fits : depthAbove l.depth deps ≤ l.levels.length := by
    rcases depthAbove_attained l.depth deps with none | ⟨d, member, same⟩
    · omega
    · have below := ((layered.placed _ d).mpr ⟨inSeen d member, rfl⟩).lt_length
      omega
  have height : edges.web.Height name (depthAbove l.depth deps) := by
    apply Web.Height.of_needs
    · intro d need
      exact layered.height d (needed d need)
    · intro d need
      exact depthAbove_bound l.depth ((Edges.needs_iff found).mp need)
    · rcases depthAbove_attained l.depth deps with none | ⟨d, member, same⟩
      · exact Or.inl none
      · exact Or.inr ⟨d, (Edges.needs_iff found).mpr member, same⟩
  obtain ⟨levels, placed, onLevel, perm, filled⟩ := place?_spec l.levels name fits
  have kept : ∀ n ∈ seen, (l.depth.insert name (depthAbove l.depth deps)).getD n 0 =
      l.depth.getD n 0 := by
    intro n member
    apply Dict.getD_insert_of_ne
    rintro rfl
    exact fresh member
  refine ⟨⟨l.depth.insert name (depthAbove l.depth deps), levels⟩, ?_, ?_, ?_, ?_, ?_⟩
  · simp [Layers.add?, found, placed]
  · intro n member
    rcases List.mem_append.mp member with member | member
    · rw [kept n member]
      exact layered.height n member
    · rw [List.mem_singleton.mp member, Dict.getD_insert_self]
      exact height
  · intro i n
    rw [onLevel, layered.placed, List.mem_append, List.mem_singleton]
    by_cases same : n = name
    · subst same
      simp only [fresh, false_and, and_true, false_or, or_true, true_and, Dict.getD_insert_self]
      exact eq_comm
    · simp only [same, and_false, or_false]
      rw [Dict.getD_insert_of_ne _ same]
  · exact perm.trans (layered.perm.append_right [name])
  · exact filled layered.filled

theorem foldlM_layered {edges : Edges} (rest : List String) :
    ∀ seen l, (seen ++ rest).Nodup → edges.web.Settled (seen ++ rest) → Layered edges seen l →
      ∃ l', rest.foldlM (Layers.add? edges) l = some l' ∧ Layered edges (seen ++ rest) l' := by
  induction rest with
  | nil =>
    intro seen l distinct settled layered
    exact ⟨l, rfl, by rwa [List.append_nil]⟩
  | cons name rest ih =>
    intro seen l distinct settled layered
    obtain ⟨known, needed⟩ := settled seen name rest rfl
    have fresh : name ∉ seen := fun member =>
      (List.nodup_append.mp distinct).2.2 name member name List.mem_cons_self rfl
    obtain ⟨next, added, layered⟩ := layered.add? fresh known needed
    rw [List.append_cons] at distinct settled
    obtain ⟨l', folded, layered⟩ := ih (seen ++ [name]) next distinct settled layered
    refine ⟨l', ?_, by rwa [← List.append_cons] at layered⟩
    rw [List.foldlM_cons, added]
    exact folded

theorem mem_flatten_iff (levels : List (List String)) (n : String) :
    n ∈ levels.flatten ↔ ∃ i, OnLevel levels i n := by
  simp only [List.mem_flatten, OnLevel]
  constructor
  · rintro ⟨level, member, inside⟩
    obtain ⟨i, found⟩ := List.getElem?_of_mem member
    exact ⟨i, level, found, inside⟩
  · rintro ⟨i, level, found, inside⟩
    exact ⟨level, List.mem_of_getElem? found, inside⟩

theorem onLevel_map_sortNames (levels : List (List String)) (i : Nat) (n : String) :
    OnLevel (levels.map sortNames) i n ↔ OnLevel levels i n := by
  simp only [OnLevel, List.getElem?_map, Option.map_eq_some_iff]
  constructor
  · rintro ⟨sorted, ⟨level, found, rfl⟩, member⟩
    exact ⟨level, found, (mem_sortNames level n).mp member⟩
  · rintro ⟨level, found, member⟩
    exact ⟨sortNames level, ⟨level, found, rfl⟩, (mem_sortNames level n).mpr member⟩

theorem flatten_map_sortNames (levels : List (List String)) :
    (levels.map sortNames).flatten.Perm levels.flatten := by
  induction levels with
  | nil => exact List.Perm.refl _
  | cons level levels ih =>
    simp only [List.map_cons, List.flatten_cons]
    exact (sortNames_perm level).append ih

end Order

open Taproom.Order (OnLevel)

/-- The packages of an order by height, no level being empty and each in ascending order. -/
structure Web.IsLevels (w : Web) (names : List String) (levels : List (List String)) : Prop where
  perm : levels.flatten.Perm names
  filled : ∀ level ∈ levels, level ≠ []
  ascending : ∀ level ∈ levels, level.Pairwise (· < ·)
  height : ∀ i n, OnLevel levels i n → w.Height n i

namespace Web.IsLevels

variable {w : Web} {names : List String} {levels : List (List String)}

theorem below (leveled : w.IsLevels names levels) (settled : w.Settled names) {i : Nat}
    {n d : String} (placed : OnLevel levels i n) (need : w.Needs n d) :
    ∃ j < i, OnLevel levels j d := by
  have inNames : n ∈ names :=
    leveled.perm.mem_iff.mp ((Order.mem_flatten_iff levels n).mpr ⟨i, placed⟩)
  have needed := leveled.perm.mem_iff.mpr (settled.mem_of_needs inNames need)
  obtain ⟨j, found⟩ := (Order.mem_flatten_iff levels d).mp needed
  exact ⟨j, (leveled.height i n placed).lt_of_transGen (.single need) (leveled.height j d found),
    found⟩

theorem index_unique (leveled : w.IsLevels names levels) {i j : Nat} {n : String}
    (first : OnLevel levels i n) (second : OnLevel levels j n) : i = j :=
  IsGreatest.unique (leveled.height i n first) (leveled.height j n second)

theorem unrelated (leveled : w.IsLevels names levels) {level : List String} {a b : String}
    (member : level ∈ levels) (first : a ∈ level) (second : b ∈ level) :
    ¬ TransGen w.Needs a b := by
  intro onward
  obtain ⟨i, found⟩ := List.getElem?_of_mem member
  have above := leveled.height i a ⟨level, found, first⟩
  have beside := leveled.height i b ⟨level, found, second⟩
  exact Nat.lt_irrefl i (above.lt_of_transGen onward beside)

end Web.IsLevels

/-- An order has levels: no package is too deep for the levels that are there when it comes. -/
theorem Order.levelsOf?_isLevels {edges : Edges} {roots names : List String}
    (order : edges.web.IsOrder roots names) :
    ∃ levels, levelsOf? edges names = some levels ∧ edges.web.IsLevels names levels := by
  obtain ⟨l, folded, layered⟩ :=
    foldlM_layered names [] {} order.distinct order.settled (.nil edges)
  refine ⟨l.levels.map sortNames, by rw [levelsOf?, folded, Option.map_some], ?_, ?_, ?_, ?_⟩
  · exact (flatten_map_sortNames l.levels).trans layered.perm
  · intro sorted member none
    obtain ⟨level, inLevels, rfl⟩ := List.mem_map.mp member
    have empty : level = [] := by
      have bare := sortNames_perm level
      rwa [none, List.nil_perm] at bare
    exact layered.filled (empty ▸ inLevels)
  · intro sorted member
    obtain ⟨level, inLevels, rfl⟩ := List.mem_map.mp member
    have distinct := (layered.perm.nodup_iff.mpr order.distinct).sublist
      (List.sublist_flatten_of_mem inLevels)
    exact sortNames_ascending distinct
  · intro i n found
    obtain ⟨inNames, rfl⟩ := (layered.placed i n).mp ((onLevel_map_sortNames l.levels i n).mp found)
    exact layered.height n inNames

namespace Graph

variable {g : Graph} {roots names : List String} {kinds : String → List String}
  {levels : List (List String)}

theorem levelsBy_ok_cases (success : g.levelsBy roots kinds = .ok levels) :
    ∃ names, g.orderBy roots kinds = .ok names ∧
      Order.levelsOf? (g.edgesBy kinds) names = some levels := by
  unfold levelsBy at success
  cases ordered : g.orderBy roots kinds with
  | error fault =>
    rw [ordered] at success
    cases success
  | ok names =>
    rw [ordered] at success
    cases leveled : Order.levelsOf? (g.edgesBy kinds) names with
    | none => simp [leveled, bind, Except.bind, throw, throwThe, MonadExceptOf.throw] at success
    | some found =>
      simp only [leveled, bind, Except.bind, pure, Except.pure, Except.ok.injEq] at success
      exact ⟨names, rfl, by rw [leveled, success]⟩

theorem levelsOf?_isLevels (success : g.orderBy roots kinds = .ok names) :
    ∃ levels, Order.levelsOf? (g.edgesBy kinds) names = some levels ∧
      (g.web kinds).IsLevels names levels := by
  have order := orderBy_isOrder success
  rw [← edgesBy_web] at order ⊢
  exact Order.levelsOf?_isLevels order

theorem levelsBy_isLevels (success : g.levelsBy roots kinds = .ok levels) :
    ∃ names, g.orderBy roots kinds = .ok names ∧ (g.web kinds).IsLevels names levels := by
  obtain ⟨names, ordered, leveled⟩ := levelsBy_ok_cases success
  obtain ⟨found, same, isLevels⟩ := levelsOf?_isLevels ordered
  rw [leveled, Option.some.injEq] at same
  exact ⟨names, ordered, same ▸ isLevels⟩

/-- Whatever has an order has levels, and the level of a package is its height: what it depends
on is on earlier levels, and packages of one level do not depend on each other. -/
theorem level_eq_height (g : Graph) (roots : List String) (kinds : String → List String) :
    (∀ names, g.orderBy roots kinds = .ok names →
      ∃ levels, Order.levelsOf? (g.edgesBy kinds) names = some levels) ∧
    ∀ levels, g.levelsBy roots kinds = .ok levels →
      (∃ names, g.orderBy roots kinds = .ok names ∧ (g.web kinds).IsLevels names levels) ∧
      (∀ i n d, OnLevel levels i n → (g.web kinds).Needs n d → ∃ j < i, OnLevel levels j d) ∧
      ∀ level ∈ levels, ∀ a ∈ level, ∀ b ∈ level, ¬ TransGen (g.web kinds).Needs a b := by
  constructor
  · intro names ordered
    obtain ⟨levels, found, -⟩ := levelsOf?_isLevels ordered
    exact ⟨levels, found⟩
  · intro levels success
    obtain ⟨names, ordered, leveled⟩ := levelsBy_isLevels success
    refine ⟨⟨names, ordered, leveled⟩, ?_, ?_⟩
    · intro i n d placed need
      exact leveled.below (orderBy_isOrder ordered).settled placed need
    · intro level member a first b second
      exact leveled.unrelated member first second

theorem diamond_level_eq_height :
    diamond.levelsBy ["app"] (fun n => if n = "app" then ["build", "run"] else ["run"]) =
        .ok [["make", "zlib"], ["lib", "ssl"], ["app"]] ∧
      (diamond.web fun n => if n = "app" then ["build", "run"] else ["run"]).Height "app" 2 := by
  have leveled : diamond.levelsBy ["app"]
      (fun n => if n = "app" then ["build", "run"] else ["run"]) =
        .ok [["make", "zlib"], ["lib", "ssl"], ["app"]] := by cbv
  obtain ⟨⟨names, -, isLevels⟩, -, -⟩ := (level_eq_height diamond ["app"] _).2 _ leveled
  exact ⟨leveled, isLevels.height 2 "app" ⟨["app"], rfl, by simp⟩⟩

end Graph

end Taproom
