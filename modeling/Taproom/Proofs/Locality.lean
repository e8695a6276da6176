import Mathlib.Data.List.Dedup
import Taproom.Proofs.Levels

/-!
What orders and levels depend on. Two graphs that say the same of everything that the roots reach
come to the same order and the same levels or fail with the same fault, however often and under
whatever names the roots and the kinds of edges are given.
-/

namespace Taproom

theorem dedup_sortNames_congr {l l' : List String} (same : ∀ n, n ∈ l ↔ n ∈ l') :
    (sortNames l).dedup = (sortNames l').dedup := by
  have ascending : ∀ l, (sortNames l).dedup.Pairwise (· < ·) := fun l =>
    ascending_of_sorted ((sortNames_sorted l).sublist (List.dedup_sublist _)) (List.nodup_dedup _)
  refine List.Pairwise.eq_of_mem_iff (ascending l) (ascending l') fun n => ?_
  rw [List.mem_dedup, List.mem_dedup, mem_sortNames, mem_sortNames, same]

theorem foldlM_congr {m : Type → Type} [Monad m] {α β : Type} {f f' : β → α → m β} {l : List α}
    (same : ∀ a ∈ l, ∀ b, f b a = f' b a) (b : β) : l.foldlM f b = l.foldlM f' b := by
  induction l generalizing b with
  | nil => rfl
  | cons a l ih =>
    rw [List.foldlM_cons, List.foldlM_cons, same a List.mem_cons_self]
    exact congrArg (f' b a >>= ·) (funext (ih fun a member => same a (List.mem_cons_of_mem _ member)))

/-- Two webs say the same of all that the roots reach in the first of them. -/
structure Web.AgreesFrom (w : Web) (roots : List String) (w' : Web) : Prop where
  knows : ∀ n, w.Reaches roots n → (w.Knows n ↔ w'.Knows n)
  needs : ∀ n d, w.Reaches roots n → (w.Needs n d ↔ w'.Needs n d)

namespace Order

/-! ### Repeated roots -/

section Repeated

variable {edges : Edges} {fuel : Nat} {path done result : List String} {name : String}

theorem mem_of_visit_eq_ok (success : visit edges fuel path done name = .ok result) :
    name ∈ result := by
  cases fuel with
  | zero => cases success
  | succ fuel =>
    rcases visit_ok_cases success with ⟨seen, rfl⟩ | ⟨deps, finished, -, -, -, -, rfl⟩
    · exact seen
    · exact List.mem_append_right _ List.mem_cons_self

theorem foldlM_visit_twice (names : List String) :
    (name :: name :: names).foldlM (visit edges (fuel + 1) path) done =
      (name :: names).foldlM (visit edges (fuel + 1) path) done := by
  rw [List.foldlM_cons, List.foldlM_cons]
  cases visited : visit edges (fuel + 1) path done name with
  | error fault => rfl
  | ok result =>
    change (name :: names).foldlM (visit edges (fuel + 1) path) result = _
    rw [List.foldlM_cons, visit_of_done (mem_of_visit_eq_ok visited)]

theorem eq_cons_of_sorted {names : List String} (sorted : (name :: names).Pairwise (· ≤ ·))
    (again : name ∈ names) : ∃ rest, names = name :: rest := by
  obtain ⟨below, sorted⟩ := List.pairwise_cons.mp sorted
  cases names with
  | nil => cases again
  | cons next rest =>
    have above : next ≤ name := by
      rcases List.mem_cons.mp again with rfl | later
      · exact String.le_refl _
      · exact (List.pairwise_cons.mp sorted).1 name later
    obtain rfl := String.le_antisymm (below next List.mem_cons_self) above
    exact ⟨rest, rfl⟩

theorem foldlM_visit_dedup {names : List String} (sorted : names.Pairwise (· ≤ ·)) :
    names.foldlM (visit edges (fuel + 1) path) done =
      names.dedup.foldlM (visit edges (fuel + 1) path) done := by
  induction names generalizing done with
  | nil => rfl
  | cons name names ih =>
    have later : ∀ done, names.foldlM (visit edges (fuel + 1) path) done =
        names.dedup.foldlM (visit edges (fuel + 1) path) done :=
      fun _ => ih (List.pairwise_cons.mp sorted).2
    by_cases again : name ∈ names
    · rw [List.dedup_cons_of_mem again, ← later]
      obtain ⟨rest, rfl⟩ := eq_cons_of_sorted sorted again
      exact foldlM_visit_twice rest
    · rw [List.dedup_cons_of_notMem again, List.foldlM_cons, List.foldlM_cons]
      exact congrArg (visit edges (fuel + 1) path done name >>= ·) (funext later)

end Repeated

/-! ### Edges that agree -/

section Agreement

variable {edges edges' : Edges} {roots roots' : List String} {bound bound' : Nat}

/-- A visit looks at nothing but what the roots reach, and what is left of the fuel does not matter
as long as it is enough for the packages that are known. -/
theorem visit_congr (within : edges.Within bound) (within' : edges'.Within bound')
    (agree : ∀ n, edges.web.Reaches roots n → edges n = edges' n) (fuel : Nat) :
    ∀ fuel' path done name, bound + 2 ≤ fuel + path.length → bound' + 2 ≤ fuel' + path.length →
      Way edges roots path name →
      visit edges fuel path done name = visit edges' fuel' path done name := by
  induction fuel with
  | zero =>
    intro fuel' path done name room room' way
    have short := within path way.distinct way.knows
    omega
  | succ fuel ih =>
    intro fuel' path done name room room' way
    cases fuel' with
    | zero =>
      -- The packages on the path are reached, so the other edges know them as well.
      have known : ∀ n ∈ path, edges'.web.Knows n := by
        intro n member
        have same := agree n (way.reached n (List.mem_cons_of_mem _ member))
        exact (congrArg Option.isSome same).symm.trans (way.knows n member)
      have short := within' path way.distinct known
      omega
    | succ fuel' =>
      have here := agree name (way.reached name List.mem_cons_self)
      by_cases seen : name ∈ done
      · rw [visit_of_done seen, visit_of_done seen]
      · by_cases onPath : name ∈ path
        · rw [visit_of_path seen onPath, visit_of_path seen onPath]
        · cases found : edges name with
          | none =>
            rw [found] at here
            cases path with
            | nil =>
              rw [visit_of_unknown_root seen found, visit_of_unknown_root seen here.symm]
            | cons parent above =>
              rw [visit_of_unknown seen onPath found,
                visit_of_unknown seen onPath here.symm]
          | some deps =>
            rw [found] at here
            rw [visit_of_known seen onPath found, visit_of_known seen onPath here.symm]
            refine congrArg _ (foldlM_congr (fun d member held => ?_) done)
            apply ih
            · simp only [List.length_cons]
              omega
            · simp only [List.length_cons]
              omega
            · exact way.down onPath ⟨deps, found, member⟩

theorem order_congr (within : edges.Within bound) (within' : edges'.Within bound')
    (agree : ∀ n, edges.web.Reaches roots n → edges n = edges' n)
    (same : ∀ n, n ∈ roots ↔ n ∈ roots') : order edges bound roots = order edges' bound' roots' := by
  rw [order, order, foldlM_visit_dedup (sortNames_sorted roots),
    foldlM_visit_dedup (sortNames_sorted roots'), ← dedup_sortNames_congr same]
  refine foldlM_congr (fun root member done => ?_) []
  rw [List.mem_dedup, mem_sortNames] at member
  exact visit_congr within within' agree _ _ [] done root (by simp) (by simp) (.begin member)

theorem levelsOf?_congr {names : List String} (agree : ∀ n ∈ names, edges n = edges' n) :
    levelsOf? edges names = levelsOf? edges' names := by
  rw [levelsOf?, levelsOf?]
  refine congrArg _ (foldlM_congr (fun n member l => ?_) _)
  simp only [Layers.add?, agree n member]

end Agreement

end Order

/-! ### Kinds of edges -/

/-- Edges of this kind are followed; no kinds stand for the usual ones. -/
def Package.Follows (kinds : List String) (kind : String) : Prop :=
  kind ∈ if kinds.isEmpty then usualKinds else kinds

theorem Package.edges_ascending (p : Package) (kinds : List String) :
    (p.edges kinds).Pairwise (· < ·) :=
  Dict.keys_ascending _

theorem Package.dependsOn_congr {kinds kinds' : List String}
    (same : ∀ kind, Follows kinds kind ↔ Follows kinds' kind) (p : Package) (d : String) :
    p.DependsOn kinds d ↔ p.DependsOn kinds' d := by
  have followed : ∀ kinds, p.DependsOn kinds d ↔
      ∃ kind, Follows kinds kind ∧ d ∈ (p.ofKind kind).toList := by
    intro kinds
    rw [← mem_edges, edges, Names.mem_toList_ofList, List.mem_flatMap]
    rfl
  rw [followed, followed]
  exact exists_congr fun kind => and_congr_left fun _ => same kind

namespace Graph

variable {g g' : Graph} {roots roots' : List String} {kinds kinds' : String → List String}

theorem web_congr (same : ∀ n kind, Package.Follows (kinds n) kind ↔ Package.Follows (kinds' n) kind) :
    g.web kinds = g.web kinds' := by
  ext n d
  · rfl
  · exact exists_congr fun p => and_congr_right fun _ => p.dependsOn_congr (same n) d

theorem edgesBy_congr {n : String} (known : (g.web kinds).Knows n ↔ (g'.web kinds').Knows n)
    (needed : ∀ d, (g.web kinds).Needs n d ↔ (g'.web kinds').Needs n d) :
    g.edgesBy kinds n = g'.edgesBy kinds' n := by
  simp only [web, Dict.contains] at known needed
  cases found : g.atom.packages.get? n with
  | none =>
    cases found' : g'.atom.packages.get? n with
    | none => simp [edgesBy, found, found']
    | some q => simp [found, found'] at known
  | some p =>
    cases found' : g'.atom.packages.get? n with
    | none => simp [found, found'] at known
    | some q =>
      have same : p.edges (kinds n) = q.edges (kinds' n) := by
        refine List.Pairwise.eq_of_mem_iff (p.edges_ascending _) (q.edges_ascending _) fun d => ?_
        have here := needed d
        simp only [found, found', Option.some.injEq, exists_eq_left'] at here
        rw [p.mem_edges, q.mem_edges, here]
      simp only [edgesBy, found, found', Option.map_some, same]

theorem orderBy_congr (agree : (g.web kinds).AgreesFrom (roots.map g.canonicalName) (g'.web kinds'))
    (same : ∀ n, n ∈ roots.map g.canonicalName ↔ n ∈ roots'.map g'.canonicalName) :
    g.orderBy roots kinds = g'.orderBy roots' kinds' := by
  refine Order.order_congr (g.within_size kinds) (g'.within_size kinds') (fun n reached => ?_) same
  rw [edgesBy_web] at reached
  exact edgesBy_congr (agree.knows n reached) fun d => agree.needs n d reached

theorem levelsBy_congr
    (agree : (g.web kinds).AgreesFrom (roots.map g.canonicalName) (g'.web kinds'))
    (same : ∀ n, n ∈ roots.map g.canonicalName ↔ n ∈ roots'.map g'.canonicalName) :
    g.levelsBy roots kinds = g'.levelsBy roots' kinds' := by
  rw [levelsBy, levelsBy, ← orderBy_congr agree same]
  cases ordered : g.orderBy roots kinds with
  | error fault => rfl
  | ok names =>
    have leveled : Order.levelsOf? (g.edgesBy kinds) names =
        Order.levelsOf? (g'.edgesBy kinds') names := by
      refine Order.levelsOf?_congr fun n member => ?_
      have reached := ((orderBy_isOrder ordered).complete n).mp member
      exact edgesBy_congr (agree.knows n reached) fun d => agree.needs n d reached
    simp only [bind, Except.bind, leveled]

/-- Orders and levels depend on the set of packages that the roots mean, on the set of kinds that is
meant, and on what the graph says of all that these packages reach along these kinds. -/
theorem order_and_levels_congr (g g' : Graph) (roots roots' kinds kinds' : List String)
    (sameRoots : ∀ n, n ∈ roots.map g.canonicalName ↔ n ∈ roots'.map g'.canonicalName)
    (sameKinds : ∀ kind, Package.Follows kinds kind ↔ Package.Follows kinds' kind)
    (agree : (g.web fun _ => kinds).AgreesFrom (roots.map g.canonicalName)
      (g'.web fun _ => kinds)) :
    g.order roots kinds = g'.order roots' kinds' ∧
      g.levels roots kinds = g'.levels roots' kinds' := by
  have followed : (g'.web fun _ => kinds) = g'.web fun _ => kinds' := web_congr fun _ => sameKinds
  rw [followed] at agree
  exact ⟨orderBy_congr agree sameRoots, levelsBy_congr agree sameRoots⟩

/-- The packages of `diamond` with a package that needs itself in the place of `make`. -/
def crowd : Graph where
  tap := ⟨"elsewhere"⟩
  atom := {
    platform := ⟨"arm64", "linux"⟩
    packages := .ofList [
      ("app", { name := "app", build := .ofList ["loop"], run := .ofList ["ssl", "lib"] }),
      ("lib", { name := "lib", dirty := true, run := .ofList ["zlib"] }),
      ("loop", { name := "loop", run := .ofList ["loop"] }),
      ("ssl", { name := "ssl", run := .ofList ["zlib"], test := .ofList ["nowhere"] }),
      ("zlib", { name := "zlib" })]
    aliases := .ofList [("application", "app")] }

theorem crowd_order_and_levels :
    diamond.order ["ssl", "core/application"] ["run"] =
        crowd.order ["app", "ssl", "application"] ["run", "run"] ∧
      diamond.levels ["ssl", "core/application"] ["run"] =
        crowd.levels ["app", "ssl", "application"] ["run", "run"] := by
  have ordered : diamond.order ["ssl", "core/application"] ["run"] =
      .ok ["zlib", "lib", "ssl", "app"] := by cbv
  have reached : ∀ n, (diamond.web fun _ => ["run"]).Reaches
      (["ssl", "core/application"].map diamond.canonicalName) n → n ∈ ["zlib", "lib", "ssl", "app"] :=
    fun n => ((orderBy_isOrder ordered).complete n).mpr
  have meant : ["ssl", "core/application"].map diamond.canonicalName = ["ssl", "app"] := by cbv
  have meant' : ["app", "ssl", "application"].map crowd.canonicalName = ["app", "ssl", "app"] := by cbv
  have same : ∀ n ∈ ["zlib", "lib", "ssl", "app"],
      (diamond.atom.packages.get? n).map (·.run.entries) =
        (crowd.atom.packages.get? n).map (·.run.entries) := by decide
  apply order_and_levels_congr
  · intro n
    rw [meant, meant']
    simp only [List.mem_cons, List.not_mem_nil, or_false]
    tauto
  · intro kind
    simp [Package.Follows]
  · have needs_run : ∀ (g : Graph) n d, (g.web fun _ => ["run"]).Needs n d ↔
        ∃ run, (g.atom.packages.get? n).map (·.run.entries) = some run ∧ (Dict.lookup d run).isSome := by
      intro g n d
      simp [web, Package.DependsOn, Dict.contains, Dict.get?]
    constructor
    · intro n there
      have alike := congrArg Option.isSome (same n (reached n there))
      rw [Option.isSome_map, Option.isSome_map] at alike
      exact iff_of_eq (congrArg (· = true) alike)
    · intro n d there
      rw [needs_run, needs_run, same n (reached n there)]

end Graph

end Taproom
