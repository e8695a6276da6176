import Taproom.Proofs.Graph

/-!
The search behind an order, with its colours. A name is white until the search comes to it, grey while
it is on the stack, and black once it is in the order. A visit keeps this apart from the lists that it
passes on; here the three are kept side by side, as marks that each step sets, and turn out to agree.
-/

namespace Taproom.Order

inductive Colour where
  | white
  | grey
  | black
  deriving DecidableEq

/-- Where a search stands. The stack comes innermost first. -/
structure Search where
  colour : String → Colour := fun _ => .white
  stack : List String := []
  order : List String := []

namespace Search

def enter (s : Search) (n : String) : Search :=
  { s with colour := Function.update s.colour n .grey, stack := n :: s.stack }

def leave (s : Search) (n : String) : Search :=
  ⟨Function.update s.colour n .black, s.stack.tail, s.order ++ [n]⟩

/-- The search goes on to the package of a name that is white, and of one that is grey but that is not
found on the stack. -/
def Goes (s : Search) (n : String) : Prop :=
  s.colour n = .white ∨ s.colour n = .grey ∧ n ∉ s.stack

/-- Why a name without a package is refused. -/
def unknown (s : Search) (n : String) : Fault :=
  match s.stack with
  | [] => .during n .noSuchFormula
  | parent :: _ => .missingDependency parent n

/-- What visits to names, one after another, come to. There is no fuel: only a search that ends comes to
anything. -/
inductive Visits (edges : Edges) : Search → List String → Except Fault Search → Prop
  | nil {s} : Visits edges s [] (.ok s)
  | black {s n rest r} : s.colour n = .black → Visits edges s rest r → Visits edges s (n :: rest) r
  | cycle {s n rest} : s.colour n = .grey → n ∈ s.stack →
      Visits edges s (n :: rest) (.error (.cycle (cyclePath s.stack n)))
  | unknown {s n rest} : s.Goes n → edges n = none → Visits edges s (n :: rest) (.error (s.unknown n))
  | fails {s n rest deps fault} : s.Goes n → edges n = some deps →
      Visits edges (s.enter n) deps (.error fault) → Visits edges s (n :: rest) (.error fault)
  | visits {s n rest deps t r} : s.Goes n → edges n = some deps →
      Visits edges (s.enter n) deps (.ok t) → Visits edges (t.leave n) rest r →
      Visits edges s (n :: rest) r

/-- The calls that a search from the roots makes: how deep they are nested, where the search stands, and
the name that is visited. -/
inductive Called (edges : Edges) (roots : List String) : Nat → Search → String → Prop
  | root {before n rest s} : roots = before ++ n :: rest → Visits edges {} before (.ok s) →
      Called edges roots 1 s n
  | nested {depth s n deps before d rest t} : Called edges roots depth s n → s.Goes n →
      edges n = some deps → deps = before ++ d :: rest → Visits edges (s.enter n) before (.ok t) →
      Called edges roots (depth + 1) t d

variable {edges : Edges} {roots path done names : List String} {n : String} {bound depth : Nat} {s : Search}

theorem Goes.not_black (goes : s.Goes n) : s.colour n ≠ .black := by
  rcases goes with white | ⟨grey, -⟩ <;> simp [*]

theorem Goes.not_found (goes : s.Goes n) : ¬ (s.colour n = .grey ∧ n ∈ s.stack) := by
  rintro ⟨grey, found⟩
  rcases goes with white | ⟨-, missing⟩
  · simp [white] at grey
  · exact missing found

/-- A search comes to one thing only. -/
theorem Visits.unique {r r' : Except Fault Search} (one : Visits edges s names r)
    (other : Visits edges s names r') : r = r' := by
  induction one generalizing r' with
  | nil =>
    cases other
    rfl
  | black black _ ih =>
    cases other with
    | black _ rest => exact ih rest
    | cycle grey => simp [black] at grey
    | unknown goes => exact absurd black goes.not_black
    | fails goes => exact absurd black goes.not_black
    | visits goes => exact absurd black goes.not_black
  | cycle grey found =>
    cases other with
    | black black => simp [black] at grey
    | cycle => rfl
    | unknown goes => exact absurd ⟨grey, found⟩ goes.not_found
    | fails goes => exact absurd ⟨grey, found⟩ goes.not_found
    | visits goes => exact absurd ⟨grey, found⟩ goes.not_found
  | unknown goes missing =>
    cases other with
    | black black => exact absurd black goes.not_black
    | cycle grey found => exact absurd ⟨grey, found⟩ goes.not_found
    | unknown => rfl
    | fails _ known => simp [missing] at known
    | visits _ known => simp [missing] at known
  | fails goes known _ ih =>
    cases other with
    | black black => exact absurd black goes.not_black
    | cycle grey found => exact absurd ⟨grey, found⟩ goes.not_found
    | unknown _ missing => simp [missing] at known
    | fails _ same below =>
      cases known.symm.trans same
      exact ih below
    | visits _ same below =>
      cases known.symm.trans same
      cases ih below
  | visits goes known _ _ down on =>
    cases other with
    | black black => exact absurd black goes.not_black
    | cycle grey found => exact absurd ⟨grey, found⟩ goes.not_found
    | unknown _ missing => simp [missing] at known
    | fails _ same below =>
      cases known.symm.trans same
      cases down below
    | visits _ same below rest =>
      cases known.symm.trans same
      cases down below
      exact on rest

/-! ### The marks agree with the lists -/

/-- Where a search stands once `done` are in the order and `path` is the way to where it is. -/
def of (path done : List String) : Search :=
  ⟨fun n => if n ∈ done then .black else if n ∈ path then .grey else .white, path, done⟩

theorem colour_of_eq_black : (of path done).colour n = .black ↔ n ∈ done := by
  simp only [of]
  split <;> simp_all
  split <;> simp

theorem colour_of_eq_grey (apart : ∀ n ∈ path, n ∉ done) :
    (of path done).colour n = .grey ↔ n ∈ path := by
  simp only [of]
  split
  · rename_i past
    simpa using fun onPath => apart n onPath past
  · split <;> simp_all

theorem goes_of : (of path done).Goes n ↔ n ∉ done ∧ n ∉ path := by
  simp only [Goes, of]
  split <;> simp_all

theorem enter_of (fresh : n ∉ done) : (of path done).enter n = of (n :: path) done := by
  simp only [enter, of, Search.mk.injEq, and_true]
  funext m
  by_cases same : m = n
  · simp [same, fresh]
  · simp [same]

theorem leave_of : (of (n :: path) done).leave n = of path (done ++ [n]) := by
  simp only [leave, of, Search.mk.injEq, List.tail_cons, and_true]
  funext m
  by_cases same : m = n
  · simp [same]
  · simp [same]

/-- The search comes to what the visits give, whose fuel does not run out. -/
theorem visits_of (within : edges.Within bound) (fuel : Nat) :
    ∀ path done names, bound + 2 ≤ fuel + path.length → (∀ n ∈ names, Way edges roots path n) →
      Visits edges (of path done) names
        ((names.foldlM (visit edges fuel path) done).map (of path)) := by
  induction fuel with
  | zero =>
    intro path done names room ways
    cases names with
    | nil => exact .nil
    | cons n rest =>
      have way := ways n List.mem_cons_self
      have short := within path way.distinct way.knows
      omega
  | succ fuel ih =>
    intro path done names room ways
    induction names generalizing done with
    | nil => exact .nil
    | cons n rest on =>
      rw [List.forall_mem_cons] at ways
      rw [List.foldlM_cons]
      by_cases seen : n ∈ done
      · rw [visit_of_done seen]
        exact .black (colour_of_eq_black.mpr seen) (on done ways.2)
      by_cases onPath : n ∈ path
      · rw [visit_of_path seen onPath]
        exact .cycle (by simp [of, seen, onPath]) onPath
      have goes := goes_of.mpr ⟨seen, onPath⟩
      cases found : edges n with
      | none =>
        have refused : visit edges (fuel + 1) path done n = .error ((of path done).unknown n) := by
          cases path with
          | nil => exact visit_of_unknown_root seen found
          | cons parent above => exact visit_of_unknown seen onPath found
        rw [refused]
        exact .unknown goes found
      | some deps =>
        have below := ih (n :: path) done deps (by simp only [List.length_cons]; omega)
          fun d need => ways.1.down onPath ⟨deps, found, need⟩
        rw [← enter_of seen] at below
        rw [visit_of_known seen onPath found]
        cases folded : deps.foldlM (visit edges fuel (n :: path)) done with
        | error fault =>
          rw [folded] at below
          exact .fails goes found below
        | ok reached =>
          rw [folded] at below
          exact .visits goes found below (leave_of ▸ on (reached ++ [n]) ways.2)

theorem Visits.reached (within : edges.Within bound) (ways : ∀ n ∈ names, Way edges roots path n)
    (finished : Finished edges (fun _ => True) path done) (visits : Visits edges (of path done) names (.ok s)) :
    ∃ more, s = of path more ∧ Finished edges (fun _ => True) path more := by
  have gives := visits.unique (visits_of within (bound + 2) path done names (by omega) ways)
  cases folded : names.foldlM (visit edges (bound + 2) path) done with
  | error fault =>
    rw [folded] at gives
    cases gives
  | ok more =>
    rw [folded] at gives
    cases gives
    exact ⟨more, rfl, (foldlM_ok (fun done n result _ =>
      visit_finished (fun _ _ _ _ => trivial) (bound + 2) path done n result trivial) finished folded).1⟩

theorem exists_visits {result : Except Fault (List String)}
    (runs : Visits edges s names (result.map (of path))) :
    ∃ r, (∀ r', Visits edges s names r' ↔ r' = r) ∧ r.map (·.order) = result := by
  refine ⟨_, fun r => ⟨fun other => other.unique runs, fun same => same ▸ runs⟩, ?_⟩
  cases result <;> rfl

theorem of_nil : of [] [] = {} := by
  rw [of]
  congr

/-- Where the search stands at each call. -/
theorem Called.stands (within : edges.Within bound) (called : Called edges roots depth s n) :
    ∃ path done, s = of path done ∧ depth = path.length + 1 ∧ Way edges roots path n ∧
      Finished edges (fun _ => True) path done := by
  induction called with
  | @root before n rest s split visits =>
    rw [← of_nil] at visits
    have ways : ∀ m ∈ before, Way edges roots [] m := fun m member => .begin (by simp [split, member])
    obtain ⟨done, rfl, finished⟩ := visits.reached within ways .nil
    exact ⟨[], done, rfl, rfl, .begin (by simp [split]), finished⟩
  | nested _ goes found split visits above =>
    obtain ⟨path, done, rfl, rfl, way, finished⟩ := above
    obtain ⟨fresh, offPath⟩ := goes_of.mp goes
    rw [enter_of fresh] at visits
    subst split
    obtain ⟨more, rfl, finished⟩ := visits.reached within
      (fun d need => way.down offPath ⟨_, found, List.mem_append_left _ need⟩) (finished.enter fresh)
    exact ⟨_, more, rfl, rfl, way.down offPath ⟨_, found, by simp⟩, finished⟩

/-- What holds of the marks at a visit to `n`. -/
structure Sound (edges : Edges) (s : Search) (n : String) : Prop where
  distinct : s.stack.Nodup
  grey : ∀ m, s.colour m = .grey ↔ m ∈ s.stack
  linked : (n :: s.stack).IsChain fun child parent => edges.web.Needs parent child
  closed : ∀ m d, s.colour m = .black → edges.web.Needs m d → s.colour d = .black
  once : s.order.Nodup
  listed : ∀ m, m ∈ s.order ↔ s.colour m = .black

theorem sound_of (way : Way edges roots path n) (finished : Finished edges (fun _ => True) path done) :
    Sound edges (of path done) n where
  distinct := way.distinct
  grey _ := colour_of_eq_grey finished.apart
  linked := way.linked
  closed m d black need := by
    rw [colour_of_eq_black] at black ⊢
    exact finished.settled.mem_of_needs black need
  once := finished.distinct
  listed _ := colour_of_eq_black.symm

/-- At every call the stack of a search holds the grey names, each once, with an edge from each to the next
and from the innermost to the name that is visited; what a black name needs is black, and the order is the
black names. So a name that is grey is found on the stack, and calls are nested no deeper than there are
packages, and one more. Each call is one of the visits that make up the order, and the search comes to one
end, which is the order. -/
theorem called_sound (g : Graph) (roots : List String) (kinds : String → List String) :
    (∀ depth s n,
      Called (g.edgesBy kinds) (sortNames (roots.map g.canonicalName)) depth s n →
        Sound (g.edgesBy kinds) s n ∧ (s.Goes n ↔ s.colour n = .white) ∧
        depth = s.stack.length + 1 ∧ depth ≤ g.atom.packages.size + 1 ∧
        ∃ r, (∀ r', Visits (g.edgesBy kinds) s [n] r' ↔ r' = r) ∧
          r.map (·.order) =
            visit (g.edgesBy kinds) (g.atom.packages.size + 3 - depth) s.stack s.order n) ∧
      ∃ r, (∀ r', Visits (g.edgesBy kinds) {} (sortNames (roots.map g.canonicalName)) r' ↔ r' = r) ∧
        r.map (·.order) = g.orderBy roots kinds := by
  have within := g.within_size kinds
  refine ⟨fun depth s n called => ?_, ?_⟩
  · obtain ⟨path, done, rfl, rfl, way, finished⟩ := called.stands within
    have short := within path way.distinct way.knows
    have runs := visits_of within (g.atom.packages.size + 3 - (path.length + 1)) path done [n] (by omega)
      (List.forall_mem_singleton.mpr way)
    rw [List.foldlM_cons] at runs
    simp only [List.foldlM_nil, bind_pure] at runs
    refine ⟨sound_of way finished, ?_, rfl, by omega, exists_visits runs⟩
    simp only [Goes, of]
    split <;> simp_all
  · rw [← of_nil]
    exact exists_visits (visits_of within _ [] [] _ (by simp) fun n member => .begin member)

end Search

end Taproom.Order
