import Mathlib.Data.List.Nodup
import Mathlib.Data.List.TakeWhile
import Taproom.Proofs.Reach
import Taproom.Proofs.Dict
import Taproom.Graph.Order

/-!
Orders hold exactly what their roots reach, each package once and after all that it needs. When
there is no order, the fault names a cycle, an edge to nowhere, or a root that is not there.
-/

namespace Taproom.Order

def Edges.web (edges : Edges) : Web where
  Knows n := (edges n).isSome
  Needs n d := ∃ deps, edges n = some deps ∧ d ∈ deps
  knows_of_needs := by
    rintro n d ⟨deps, found, -⟩
    rw [found, Option.isSome_some]

variable {edges : Edges} {Inside : String → Prop} {roots path done deps : List String}
  {name n d : String} {fuel bound : Nat} {fault : Fault}

theorem Edges.knows_of_found (found : edges n = some deps) : edges.web.Knows n :=
  Option.isSome_iff_exists.mpr ⟨deps, found⟩

theorem Edges.not_knows (missing : edges n = none) : ¬ edges.web.Knows n := by
  simp [Edges.web, missing]

theorem Edges.needs_iff (found : edges n = some deps) : edges.web.Needs n d ↔ d ∈ deps := by
  constructor
  · rintro ⟨others, same, member⟩
    rw [found, Option.some.injEq] at same
    rwa [same]
  · intro member
    exact ⟨deps, found, member⟩

/-! ### One visit -/

theorem visit_of_done (seen : name ∈ done) : visit edges (fuel + 1) path done name = .ok done := by
  simp [visit, seen]

theorem visit_of_path (fresh : name ∉ done) (onPath : name ∈ path) :
    visit edges (fuel + 1) path done name = .error (.cycle (cyclePath path name)) := by
  simp [visit, fresh, onPath]

theorem visit_of_unknown_root (fresh : name ∉ done) (missing : edges name = none) :
    visit edges (fuel + 1) [] done name = .error (.during name .noSuchFormula) := by
  simp [visit, fresh, missing]

theorem visit_of_unknown {parent : String} {above : List String} (fresh : name ∉ done)
    (offPath : name ∉ parent :: above) (missing : edges name = none) :
    visit edges (fuel + 1) (parent :: above) done name =
      .error (.missingDependency parent name) := by
  simp only [visit, List.contains_eq_mem, fresh, offPath, missing, decide_false, Bool.false_eq_true,
    ↓reduceIte]

theorem visit_of_known (fresh : name ∉ done) (offPath : name ∉ path)
    (found : edges name = some deps) :
    visit edges (fuel + 1) path done name =
      (deps.foldlM (visit edges fuel (name :: path)) done).map (· ++ [name]) := by
  simp only [visit, List.contains_eq_mem, fresh, offPath, found, decide_false, Bool.false_eq_true,
    ↓reduceIte]

/-- All that a visit can come to, as long as there is fuel. -/
theorem visit_cases (edges : Edges) (fuel : Nat) (path done : List String) (name : String) :
    name ∈ done ∧ visit edges (fuel + 1) path done name = .ok done ∨
      name ∈ path ∧
        visit edges (fuel + 1) path done name = .error (.cycle (cyclePath path name)) ∨
      edges name = none ∧ path = [] ∧
        visit edges (fuel + 1) path done name = .error (.during name .noSuchFormula) ∨
      (∃ parent above, edges name = none ∧ path = parent :: above ∧
        visit edges (fuel + 1) path done name = .error (.missingDependency parent name)) ∨
      ∃ deps, name ∉ done ∧ name ∉ path ∧ edges name = some deps ∧
        visit edges (fuel + 1) path done name =
          (deps.foldlM (visit edges fuel (name :: path)) done).map (· ++ [name]) := by
  by_cases seen : name ∈ done
  · exact Or.inl ⟨seen, visit_of_done seen⟩
  · right
    by_cases onPath : name ∈ path
    · exact Or.inl ⟨onPath, visit_of_path seen onPath⟩
    · right
      cases found : edges name with
      | some deps =>
        exact Or.inr (Or.inr ⟨deps, seen, onPath, rfl, visit_of_known seen onPath found⟩)
      | none =>
        cases path with
        | nil => exact Or.inl ⟨rfl, rfl, visit_of_unknown_root seen found⟩
        | cons parent above =>
          exact Or.inr (Or.inl ⟨parent, above, rfl, rfl, visit_of_unknown seen onPath found⟩)

theorem visit_ok_cases {result : List String}
    (success : visit edges (fuel + 1) path done name = .ok result) :
    name ∈ done ∧ result = done ∨
      ∃ deps finished, name ∉ done ∧ name ∉ path ∧ edges name = some deps ∧
        deps.foldlM (visit edges fuel (name :: path)) done = .ok finished ∧
        result = finished ++ [name] := by
  rcases visit_cases edges fuel path done name with ⟨seen, outcome⟩ | ⟨-, outcome⟩ |
    ⟨-, -, outcome⟩ | ⟨parent, above, -, -, outcome⟩ | ⟨deps, fresh, offPath, found, outcome⟩
  all_goals rw [outcome] at success
  · exact Or.inl ⟨seen, (Except.ok.inj success).symm⟩
  · cases success
  · cases success
  · cases success
  · cases folded : deps.foldlM (visit edges fuel (name :: path)) done with
    | error fault => rw [folded] at success; cases success
    | ok finished =>
      rw [folded] at success
      exact Or.inr ⟨deps, finished, fresh, offPath, found, folded, (Except.ok.inj success).symm⟩

theorem visit_error_cases (failed : visit edges (fuel + 1) path done name = .error fault) :
    name ∈ path ∧ fault = .cycle (cyclePath path name) ∨
      edges name = none ∧ path = [] ∧ fault = .during name .noSuchFormula ∨
      (∃ parent above, edges name = none ∧ path = parent :: above ∧
        fault = .missingDependency parent name) ∨
      ∃ deps, name ∉ path ∧ edges name = some deps ∧
        deps.foldlM (visit edges fuel (name :: path)) done = .error fault := by
  rcases visit_cases edges fuel path done name with ⟨-, outcome⟩ | ⟨onPath, outcome⟩ |
    ⟨missing, root, outcome⟩ | ⟨parent, above, missing, below, outcome⟩ |
    ⟨deps, -, offPath, found, outcome⟩
  all_goals rw [outcome] at failed
  · cases failed
  · exact Or.inl ⟨onPath, (Except.error.inj failed).symm⟩
  · exact Or.inr (Or.inl ⟨missing, root, (Except.error.inj failed).symm⟩)
  · exact Or.inr (Or.inr (Or.inl ⟨parent, above, missing, below, (Except.error.inj failed).symm⟩))
  · cases folded : deps.foldlM (visit edges fuel (name :: path)) done with
    | ok finished => rw [folded] at failed; cases failed
    | error cause =>
      rw [folded] at failed
      cases failed
      exact Or.inr (Or.inr (Or.inr ⟨deps, offPath, found, folded⟩))

/-! ### Visits one after another -/

section Fold

variable {visit : List String → String → Except Fault (List String)}

/-- If each visit keeps what holds of the list, keeps its members and adds the name that is
visited, then so do all visits together. -/
theorem foldlM_ok {Holds : List String → Prop} {names result : List String}
    (each : ∀ done name result, name ∈ names → Holds done → visit done name = .ok result →
      Holds result ∧ done ⊆ result ∧ name ∈ result)
    (start : Holds done) (success : names.foldlM visit done = .ok result) :
    Holds result ∧ done ⊆ result ∧ names ⊆ result := by
  induction names generalizing done with
  | nil =>
    obtain rfl : done = result := by simpa [pure, Except.pure] using success
    exact ⟨start, List.Subset.refl _, List.nil_subset _⟩
  | cons name names ih =>
    rw [List.foldlM_cons] at success
    cases first : visit done name with
    | error fault => simp [first, bind, Except.bind] at success
    | ok next =>
      simp only [first, bind, Except.bind] at success
      obtain ⟨held, kept, added⟩ := each done name next List.mem_cons_self start first
      have later : ∀ done n result, n ∈ names → Holds done → visit done n = .ok result →
          Holds result ∧ done ⊆ result ∧ n ∈ result :=
        fun done n result member => each done n result (List.mem_cons_of_mem _ member)
      obtain ⟨holds, grown, visited⟩ := ih later held success
      exact ⟨holds, List.Subset.trans kept grown, List.cons_subset.mpr ⟨grown added, visited⟩⟩

theorem foldlM_error {names : List String} (failed : names.foldlM visit done = .error fault) :
    ∃ name ∈ names, ∃ done, visit done name = .error fault := by
  induction names generalizing done with
  | nil => simp [pure, Except.pure] at failed
  | cons name names ih =>
    rw [List.foldlM_cons] at failed
    cases first : visit done name with
    | error cause =>
      simp only [first, bind, Except.bind, Except.error.injEq] at failed
      subst failed
      exact ⟨name, List.mem_cons_self, done, first⟩
    | ok next =>
      simp only [first, bind, Except.bind] at failed
      obtain ⟨n, member, held, cause⟩ := ih failed
      exact ⟨n, List.mem_cons_of_mem _ member, held, cause⟩

end Fold

/-! ### What visits keep -/

/-- What holds of the packages that are done while those on the path are not. They stay inside any
set of packages that edges do not leave. -/
structure Finished (edges : Edges) (Inside : String → Prop) (path done : List String) : Prop where
  distinct : done.Nodup
  settled : edges.web.Settled done
  inside : ∀ n ∈ done, Inside n
  apart : ∀ n ∈ path, n ∉ done

namespace Finished

theorem nil : Finished edges Inside [] [] :=
  ⟨List.nodup_nil, .nil, fun _ member => absurd member List.not_mem_nil,
    fun _ member => absurd member List.not_mem_nil⟩

theorem enter (finished : Finished edges Inside path done) (fresh : name ∉ done) :
    Finished edges Inside (name :: path) done := by
  refine ⟨finished.distinct, finished.settled, finished.inside, ?_⟩
  intro n member
  rcases List.mem_cons.mp member with rfl | member
  · exact fresh
  · exact finished.apart n member

theorem leave (finished : Finished edges Inside (name :: path) done) (offPath : name ∉ path)
    (inside : Inside name) (found : edges name = some deps) (visited : deps ⊆ done) :
    Finished edges Inside path (done ++ [name]) := by
  have fresh : name ∉ done := finished.apart name List.mem_cons_self
  refine ⟨?_, ?_, ?_, ?_⟩
  · exact List.nodup_append.mpr ⟨finished.distinct, List.nodup_singleton name, by
      rintro n member m same rfl
      exact fresh (List.mem_singleton.mp same ▸ member)⟩
  · apply finished.settled.snoc
    · exact Edges.knows_of_found found
    · intro d need
      exact visited ((Edges.needs_iff found).mp need)
  · intro n member
    rcases List.mem_append.mp member with member | member
    · exact finished.inside n member
    · rwa [List.mem_singleton.mp member]
  · intro n onPath member
    rcases List.mem_append.mp member with member | member
    · exact finished.apart n (List.mem_cons_of_mem _ onPath) member
    · exact offPath (List.mem_singleton.mp member ▸ onPath)

end Finished

theorem visit_finished (closed : ∀ n d, Inside n → edges.web.Needs n d → Inside d) (fuel : Nat) :
    ∀ path done name result, Inside name → Finished edges Inside path done →
      visit edges fuel path done name = .ok result →
      Finished edges Inside path result ∧ done ⊆ result ∧ name ∈ result := by
  induction fuel with
  | zero =>
    intro path done name result inside finished success
    simp [visit] at success
  | succ fuel ih =>
    intro path done name result inside finished success
    rcases visit_ok_cases success with
      ⟨seen, rfl⟩ | ⟨deps, reached, fresh, offPath, found, folded, rfl⟩
    · exact ⟨finished, List.Subset.refl _, seen⟩
    · -- The dependencies are visited with `name` on the path, so that none of them finishes it.
      have each : ∀ done d result, d ∈ deps → Finished edges Inside (name :: path) done →
          visit edges fuel (name :: path) done d = .ok result →
          Finished edges Inside (name :: path) result ∧ done ⊆ result ∧ d ∈ result := by
        intro done d result member
        exact ih (name :: path) done d result (closed name d inside ⟨deps, found, member⟩)
      obtain ⟨below, kept, visited⟩ := foldlM_ok each (finished.enter fresh) folded
      exact ⟨below.leave offPath inside found visited,
        List.Subset.trans kept (List.subset_append_left _ _),
        List.mem_append_right _ List.mem_cons_self⟩

/-! ### Why visits fail -/

/-- The way on which a package is visited: edges lead down along the path, whose last member they
find in a root. -/
structure Way (edges : Edges) (roots path : List String) (name : String) : Prop where
  distinct : path.Nodup
  linked : (name :: path).IsChain fun child parent => edges.web.Needs parent child
  reached : ∀ n ∈ name :: path, edges.web.Reaches roots n
  root : path = [] → name ∈ roots

namespace Way

theorem begin (member : name ∈ roots) : Way edges roots [] name := by
  refine ⟨List.nodup_nil, List.isChain_singleton name, ?_, fun _ => member⟩
  intro n same
  rw [List.mem_singleton.mp same]
  exact .root member

theorem down (way : Way edges roots path name) (offPath : name ∉ path)
    (need : edges.web.Needs name d) : Way edges roots (name :: path) d := by
  refine ⟨List.nodup_cons.mpr ⟨offPath, way.distinct⟩,
    List.isChain_cons_cons.mpr ⟨need, way.linked⟩, ?_, fun none => absurd none (by simp)⟩
  intro n member
  rcases List.mem_cons.mp member with rfl | member
  · exact (way.reached name List.mem_cons_self).tail need
  · exact way.reached n member

theorem knows (way : Way edges roots path name) : ∀ n ∈ path, edges.web.Knows n := by
  have linked := way.linked
  clear way
  induction path generalizing name with
  | nil => intro n member; cases member
  | cons parent above ih =>
    obtain ⟨need, linked⟩ := List.isChain_cons_cons.mp linked
    intro n member
    rcases List.mem_cons.mp member with rfl | member
    · exact edges.web.knows_of_needs need
    · exact ih linked n member

end Way

theorem split_at_takeWhile (onPath : name ∈ path) :
    ∃ above, path = path.takeWhile (· ≠ name) ++ name :: above := by
  induction path with
  | nil => cases onPath
  | cons first rest ih =>
    by_cases same : first = name
    · exact ⟨rest, by simp [same]⟩
    · obtain ⟨above, split⟩ := ih ((List.mem_cons.mp onPath).resolve_left (Ne.symm same))
      refine ⟨above, ?_⟩
      rw [List.takeWhile_cons_of_pos (by simpa using same), List.cons_append, ← split]

/-- The path below `name` is a cycle once `name` is met again. -/
theorem cyclePath_cycle (way : Way edges roots path name) (onPath : name ∈ path) :
    edges.web.Cycle (cyclePath path name) := by
  obtain ⟨above, split⟩ := split_at_takeWhile onPath
  have below : name ∉ path.takeWhile (· ≠ name) := by
    intro member
    simpa using List.mem_takeWhile_imp member
  have turned : cyclePath path name = (name :: path.takeWhile (· ≠ name) ++ [name]).reverse := by
    simp [cyclePath]
  refine ⟨?_, ?_, ?_, ?_⟩
  · simp [cyclePath]
  · rw [cyclePath, List.getLast?_concat]
    rfl
  · rw [cyclePath, List.dropLast_concat, List.nodup_cons, List.nodup_reverse, List.mem_reverse]
    exact ⟨below, way.distinct.sublist (List.takeWhile_sublist _)⟩
  · rw [turned, List.isChain_reverse]
    apply way.linked.prefix
    refine ⟨above, ?_⟩
    conv_rhs => rw [split]
    simp

theorem mem_of_mem_cyclePath (onPath : name ∈ path) (member : n ∈ cyclePath path name) :
    n ∈ path := by
  rw [cyclePath] at member
  rcases List.mem_append.mp member with member | member
  · rcases List.mem_cons.mp member with rfl | member
    · exact onPath
    · exact (List.takeWhile_sublist _).subset (List.mem_reverse.mp member)
  · rwa [List.mem_singleton.mp member]

def Edges.Within (edges : Edges) (bound : Nat) : Prop :=
  ∀ l : List String, l.Nodup → (∀ n ∈ l, edges.web.Knows n) → l.length ≤ bound

/-- A visit that starts with room for every known package below it never runs out of it, and what
it fails with is so. -/
theorem visit_explained (within : edges.Within bound) (fuel : Nat) :
    ∀ path done name fault, bound + 2 ≤ fuel + path.length → Way edges roots path name →
      visit edges fuel path done name = .error fault → edges.web.Explains roots fault := by
  induction fuel with
  | zero =>
    intro path done name fault room way failed
    -- The path would be longer than there are known packages.
    have short := within path way.distinct way.knows
    omega
  | succ fuel ih =>
    intro path done name fault room way failed
    rcases visit_error_cases failed with ⟨onPath, rfl⟩ | ⟨missing, rfl, rfl⟩ |
      ⟨parent, above, missing, rfl, rfl⟩ | ⟨deps, offPath, found, folded⟩
    · refine ⟨cyclePath_cycle way onPath, ?_⟩
      intro n member
      have onWay := mem_of_mem_cyclePath onPath member
      exact ⟨way.knows n onWay, way.reached n (List.mem_cons_of_mem _ onWay)⟩
    · exact ⟨way.root rfl, Edges.not_knows missing⟩
    · obtain ⟨need, -⟩ := List.isChain_cons_cons.mp way.linked
      exact ⟨edges.web.knows_of_needs need, way.reached parent (by simp), need,
        Edges.not_knows missing⟩
    · obtain ⟨d, member, held, failed⟩ := foldlM_error folded
      have below := way.down offPath ⟨deps, found, member⟩
      exact ih (name :: path) held d fault (by simp only [List.length_cons]; omega) below failed

/-! ### Orders -/

theorem order_isOrder {names : List String} (success : order edges bound roots = .ok names) :
    edges.web.IsOrder roots names := by
  have each : ∀ done root result, root ∈ sortNames roots →
      Finished edges (edges.web.Reaches roots) [] done →
      visit edges (bound + 2) [] done root = .ok result →
      Finished edges (edges.web.Reaches roots) [] result ∧ done ⊆ result ∧ root ∈ result := by
    intro done root result member
    have inside : edges.web.Reaches roots root := .root ((mem_sortNames roots root).mp member)
    exact visit_finished (fun n d => Web.Reaches.tail) (bound + 2) [] done root result inside
  obtain ⟨finished, -, visited⟩ := foldlM_ok each .nil success
  refine ⟨finished.distinct, fun n => ⟨finished.inside n, ?_⟩, finished.settled⟩
  rintro ⟨root, member, path⟩
  exact finished.settled.mem_of_path (visited ((mem_sortNames roots root).mpr member)) path

theorem order_explained (within : edges.Within bound)
    (failed : order edges bound roots = .error fault) : edges.web.Explains roots fault := by
  obtain ⟨root, member, done, failed⟩ := foldlM_error failed
  have way : Way edges roots [] root := .begin ((mem_sortNames roots root).mp member)
  exact visit_explained within (bound + 2) [] done root fault (by simp) way failed

end Taproom.Order
