import Mathlib.Logic.Function.Basic
import Taproom.Proofs.Restart

/-!
Packages that are marked as failed or as not failed by several requests at the same time. A request
marks its package and then goes over the graphs: it takes the text of one, which others may mark in
the meantime, and writes it to the store. What the store has in the end are the marks that were made
when the text that was written last had been taken.
-/

namespace Taproom

/-! ### Marking one package -/

namespace Graph

variable (g : Graph) (name : String) (failed : Bool)

def mark : Graph := (g.setFailed name failed).toOption.getD g

theorem mark_of_setFailed {g' : Graph} (marked : g.setFailed name failed = .ok g') :
    g.mark name failed = g' := by
  rw [mark, marked]
  rfl

theorem setFailed_eq_mark (present : (g.atom.packages.get? (g.canonicalName name)).isSome) :
    g.setFailed name failed = .ok (g.mark name failed) := by
  obtain ⟨p, found⟩ := Option.isSome_iff_exists.mp present
  rw [mark, setFailed, found]
  rfl

theorem isSome_of_setFailed {g' : Graph} (marked : g.setFailed name failed = .ok g') :
    (g.atom.packages.get? (g.canonicalName name)).isSome := by
  rw [setFailed] at marked
  split at marked
  · rename_i present
    rw [present]
    rfl
  · cases marked

theorem get?_mark (n : String) : (g.mark name failed).atom.packages.get? n =
    (g.atom.packages.get? n).map fun p => if n = g.canonicalName name then { p with failed } else p := by
  rw [mark, setFailed]
  cases present : g.atom.packages.get? (g.canonicalName name) with
  | none =>
    change g.atom.packages.get? n = _
    by_cases same : n = g.canonicalName name
    · rw [same, present, Option.map_none]
    · simp [same]
  | some p =>
    change (g.atom.packages.insert (g.canonicalName name) { p with failed }).get? n = _
    by_cases same : n = g.canonicalName name
    · rw [same, Dict.get?_insert_self, present, Option.map_some, if_pos rfl]
    · rw [Dict.get?_insert_of_ne _ same]
      simp [same]

theorem canonicalName_mark (n : String) : (g.mark name failed).canonicalName n = g.canonicalName n := by
  rw [mark, setFailed]
  cases g.atom.packages.get? (g.canonicalName name) <;> rfl

end Graph

namespace Marking

open Manager (storeKey KeysDiffer keep persist)

/-! ### Steps of requests -/

structure Request where
  tag : String
  name : String
  failed : Bool

inductive Stage where
  | waiting
  | keeping (tags : List String)
  | writing (tag text : String) (tags : List String)
  | answered

def Stage.left : Stage → List String
  | waiting | answered => []
  | keeping tags => tags
  | writing tag _ tags => tag :: tags

/-- What a request did, or that the store has begun or ceased to refuse texts. -/
inductive Event (ι : Type) where
  | marked (i : ι)
  | took (i : ι) (tag : String)
  | wrote (i : ι) (tag : String)
  | refused (i : ι) (tag : String)
  | answered (i : ι)
  | turned
  deriving DecidableEq

variable {ι : Type}

structure State (ι : Type) where
  graphs : Dict String Graph
  store : Store
  stage : ι → Stage

def State.start (graphs : Dict String Graph) (store : Store) : State ι :=
  ⟨graphs, store, fun _ => .waiting⟩

def State.Answered (s : State ι) : Prop := ∀ i, s.stage i = .answered

variable [DecidableEq ι] (u : ι → Request)

inductive Step (s : State ι) : Event ι → State ι → Prop where
  | mark {i g g'} (here : s.stage i = .waiting) (found : s.graphs.get? (u i).tag = some g)
      (marked : g.setFailed (u i).name (u i).failed = .ok g') :
      Step s (.marked i) { s with
        graphs := s.graphs.insert (u i).tag g'
        stage := Function.update s.stage i (.keeping s.graphs.keys) }
  | take {i tag tags g} (here : s.stage i = .keeping tags) (next : tag ∈ tags)
      (found : s.graphs.get? tag = some g) :
      Step s (.took i tag) { s with
        stage := Function.update s.stage i (.writing tag g.atom.encode (tags.erase tag)) }
  | write {i tag text tags store} (here : s.stage i = .writing tag text tags)
      (taken : s.store.put (storeKey tag) text = .ok store) :
      Step s (.wrote i tag) { s with store, stage := Function.update s.stage i (.keeping tags) }
  | refuse {i tag text tags f} (here : s.stage i = .writing tag text tags)
      (refused : s.store.put (storeKey tag) text = .error f) :
      Step s (.refused i tag) { s with stage := Function.update s.stage i (.keeping tags) }
  | answer {i} (here : s.stage i = .keeping []) :
      Step s (.answered i) { s with stage := Function.update s.stage i .answered }
  | turn (fault : Option Fault) :
      Step s .turned { s with store := { s.store with putFault := fault } }

/-- Steps of the requests in any order, the newest first. -/
inductive Run (first : State ι) : List (Event ι) → State ι → Prop where
  | start : Run first [] first
  | step {h e s s'} (run : Run first h s) (next : Step u s e s') : Run first (e :: h) s'

variable {u}

/-- A request that is alone keeps the graphs one by one as they are listed. -/
theorem run_of_keep {first s : State ι} {i : ι} (l : List (String × Graph)) {h : List (Event ι)}
    (run : Run u first h s) (here : s.stage i = .keeping (l.map (·.1)))
    (found : ∀ e ∈ l, s.graphs.get? e.1 = some e.2) :
    ∃ h', Run u first h' { s with
      store := l.foldl (fun s (tag, g) => keep s tag g) s.store
      stage := Function.update s.stage i .answered } := by
  induction l generalizing s h with
  | nil => exact ⟨_, run.step (.answer here)⟩
  | cons e l ih =>
    obtain ⟨tag, g⟩ := e
    rw [List.forall_mem_cons] at found
    have took := run.step (.take here List.mem_cons_self found.1)
    rw [List.map_cons, List.erase_cons_head] at took
    rw [List.foldl_cons]
    cases outcome : s.store.put (storeKey tag) g.atom.encode with
    | ok store =>
      have wrote := took.step (.write (Function.update_self ..) outcome)
      obtain ⟨h', all⟩ := ih wrote (Function.update_self ..) found.2
      simp only [Function.update_idem] at all
      exact ⟨h', by simpa only [keep, outcome] using all⟩
    | error f =>
      have refused := took.step (.refuse (Function.update_self ..) outcome)
      obtain ⟨h', all⟩ := ih refused (Function.update_self ..) found.2
      simp only [Function.update_idem] at all
      exact ⟨h', by simpa only [keep, outcome] using all⟩

/-- A request that has the manager to itself is answered by these steps. -/
theorem run_of_setFailed {m m' : Manager} {store : Store} {stage : ι → Stage} {i : ι}
    (waits : stage i = .waiting) (stored : m.store = some store)
    (marked : m.setFailed (u i).tag (u i).name (u i).failed = .ok m') :
    ∃ store' h, m'.store = some store' ∧ Run u ⟨m.graphs, store, stage⟩ h
      ⟨m'.graphs, store', Function.update stage i .answered⟩ := by
  rw [Manager.setFailed, Manager.graph] at marked
  cases found : m.graphs.get? (u i).tag with
  | none =>
    rw [found] at marked
    cases marked
  | some g =>
    rw [found] at marked
    cases changed : g.setFailed (u i).name (u i).failed with
    | error f =>
      simp only [bind, Except.bind, changed] at marked
      cases marked
    | ok g' =>
      simp only [bind, Except.bind, changed] at marked
      cases marked
      have first : Run u ⟨m.graphs, store, stage⟩ _ _ := .step .start (.mark waits found changed)
      have keys : m.graphs.keys = (m.graphs.insert (u i).tag g').toList.map (·.1) := by
        rw [Dict.insert_eq_map m.graphs (by rw [found]; rfl) g']
        simp [Dict.keys, Dict.toList, Dict.map]
      obtain ⟨h, run⟩ := run_of_keep _ first (by rw [← keys]; exact Function.update_self ..)
        fun e member => (Dict.get?_eq_some_iff ..).mpr member
      rw [Function.update_idem] at run
      exact ⟨_, h, by rw [persist, stored]; rfl, run⟩

/-! ### Histories -/

def marks (u : ι → Request) (tag : String) (g : Graph) : List (Event ι) → Graph
  | .marked i :: h =>
    if (u i).tag = tag then (marks u tag g h).mark (u i).name (u i).failed else marks u tag g h
  | _ :: h => marks u tag g h
  | [] => g

def takenAt (i : ι) (tag : String) : List (Event ι) → List (Event ι)
  | e :: h => if e = .took i tag then h else takenAt i tag h
  | [] => []

/-- The history when the text was taken that was last written under a tag. -/
def writtenAt (tag : String) : List (Event ι) → Option (List (Event ι))
  | .wrote i t :: h => if t = tag then some (takenAt i tag h) else writtenAt tag h
  | _ :: h => writtenAt tag h
  | [] => none

/-- No text is written under a tag after one that was taken later. -/
def InOrder (tag : String) : List (Event ι) → Prop
  | .wrote i t :: h =>
    InOrder tag h ∧ (t = tag → ∀ older, writtenAt tag h = some older → older <:+ takenAt i tag h)
  | _ :: h => InOrder tag h
  | [] => True

/-- Different requests for a platform are about different packages of its graph. -/
def Apart (u : ι → Request) (tag : String) (g : Graph) : Prop :=
  ∀ i j, (u i).tag = tag → (u j).tag = tag →
    g.canonicalName (u i).name = g.canonicalName (u j).name → i = j

/-- The mark that the store has of a package. -/
def storedMark (s : Store) (tag : String) (p : Platform) (name : String) : Option Bool := do
  let text ← s.entries.get? (storeKey tag)
  let atom ← Atom.decode? { platform := p } text
  let package ← atom.packages.get? name
  return package.failed

variable {tag : String} {g : Graph} {h : List (Event ι)} {i : ι}

omit [DecidableEq ι] in
theorem canonicalName_marks (n : String) : (marks u tag g h).canonicalName n = g.canonicalName n := by
  fun_induction marks u tag g h with
  | case1 j h here ih => rw [Graph.canonicalName_mark, ih]
  | case2 j h apart ih => exact ih
  | case3 e h other ih => exact ih
  | case4 => rfl

omit [DecidableEq ι] in
theorem isSome_get?_marks (n : String) : ((marks u tag g h).atom.packages.get? n).isSome =
    (g.atom.packages.get? n).isSome := by
  fun_induction marks u tag g h with
  | case1 j h here ih => rw [Graph.get?_mark, Option.isSome_map, ih]
  | case2 j h apart ih => exact ih
  | case3 e h other ih => exact ih
  | case4 => rfl

/-- After some requests for different packages were made, each of these is marked as requested and
the others are as they were. -/
theorem failed_marks (apart : Apart u tag g) (here : (u i).tag = tag) (h : List (Event ι)) :
    ((marks u tag g h).atom.packages.get? (g.canonicalName (u i).name)).map (·.failed) =
      (g.atom.packages.get? (g.canonicalName (u i).name)).map fun p =>
        if .marked i ∈ h then (u i).failed else p.failed := by
  fun_induction marks u tag g h with
  | case1 j h isHere ih =>
    rw [Graph.get?_mark, canonicalName_marks]
    by_cases same : i = j
    · subst same
      -- The mark overwrites whatever the package had, so only that it is there matters.
      have present : ((marks u tag g h).atom.packages.get? (g.canonicalName (u i).name)).isSome =
          (g.atom.packages.get? (g.canonicalName (u i).name)).isSome := isSome_get?_marks _
      revert present
      cases (marks u tag g h).atom.packages.get? (g.canonicalName (u i).name) <;>
        cases g.atom.packages.get? (g.canonicalName (u i).name) <;> simp
    · have different : g.canonicalName (u i).name ≠ g.canonicalName (u j).name :=
        fun equal => same (apart i j here isHere equal)
      simpa [different, same] using ih
  | case2 j h isElse ih =>
    have different : i ≠ j := by
      rintro rfl
      exact isElse here
    simpa [different] using ih
  | case3 e h other ih =>
    have different : e ≠ .marked i := fun same => other i same
    simpa [different.symm] using ih
  | case4 => simp

theorem storedMark_of_entry {s : Store} {a : Atom} (entry : s.entries.get? (storeKey tag) = some a.encode)
    (p : Platform) (name : String) :
    storedMark s tag p name = (a.packages.get? name).map (·.failed) := by
  simp only [storedMark, entry, Option.bind_eq_bind, Option.bind_some, Atom.decode?_encode]
  cases a.packages.get? name <;> rfl

/-! ### What holds from step to step -/

/-- A request is as far as the events say: it was begun by its mark, the text that it is to write was
taken after that, and it forgets none of the graphs. -/
structure Follows (u : ι → Request) (before : Dict String Graph) (h : List (Event ι)) (i : ι)
    (stage : Stage) : Prop where
  marked : stage ≠ .waiting → .marked i ∈ h
  taken : ∀ tag text tags, stage = .writing tag text tags → .marked i ∈ takenAt i tag h ∧
    ∃ g, before.get? tag = some g ∧ text = (marks u tag g (takenAt i tag h)).atom.encode
  left : stage ≠ .waiting → ∀ tag ∈ before.keys,
    tag ∈ stage.left ∨ .wrote i tag ∈ h ∨ .refused i tag ∈ h

/-- Graphs, store and requests are what the events say. -/
structure Steady (u : ι → Request) (before : Dict String Graph) (store : Store) (h : List (Event ι))
    (s : State ι) : Prop where
  graphs : ∀ tag, s.graphs.get? tag = (before.get? tag).map fun g => marks u tag g h
  entries : ∀ tag g, before.get? tag = some g → s.store.entries.get? (storeKey tag) =
    (writtenAt tag h).elim (store.entries.get? (storeKey tag)) fun h' =>
      some (marks u tag g h').atom.encode
  requests : ∀ i, Follows u before h i (s.stage i)
  present : ∀ i g, .marked i ∈ h → before.get? (u i).tag = some g →
    (g.atom.packages.get? (g.canonicalName (u i).name)).isSome
  newest : ∀ i tag, InOrder tag h → .wrote i tag ∈ h →
    ∃ h', writtenAt tag h = some h' ∧ .marked i ∈ h'

variable {before : Dict String Graph} {store : Store} {s s' : State ι} {e : Event ι}

theorem Follows.cons {stage : Stage} (follows : Follows u before h i stage)
    (other : ∀ tag, e ≠ .took i tag) : Follows u before (e :: h) i stage where
  marked begun := List.mem_cons_of_mem e (follows.marked begun)
  taken tag text tags here := by
    rw [takenAt, if_neg (other tag)]
    exact follows.taken tag text tags here
  left begun tag known := (follows.left begun tag known).imp_right
    (Or.imp (List.mem_cons_of_mem e) (List.mem_cons_of_mem e))

theorem requests_update (requests : ∀ j, Follows u before h j (s.stage j))
    (mine : ∀ j tag, e = .took j tag → j = i) {stage : Stage}
    (follows : Follows u before (e :: h) i stage) (j : ι) :
    Follows u before (e :: h) j (Function.update s.stage i stage j) := by
  by_cases same : j = i
  · rw [same, Function.update_self]
    exact follows
  · rw [Function.update_of_ne same]
    exact (requests j).cons fun tag took => same (mine j tag took)

omit [DecidableEq ι] in
theorem marks_cons_other (other : ∀ i, e ≠ .marked i) (g : Graph) :
    marks u tag g (e :: h) = marks u tag g h := by
  cases e with
  | marked i => exact absurd rfl (other i)
  | took | wrote | refused | answered | turned => rfl

theorem writtenAt_cons_other (other : ∀ i, e ≠ .wrote i tag) : writtenAt tag (e :: h) = writtenAt tag h := by
  cases e with
  | wrote i t =>
    rw [writtenAt, if_neg]
    rintro rfl
    exact other i rfl
  | marked | took | refused | answered | turned => rfl

theorem inOrder_of_cons (ordered : InOrder tag (e :: h)) : InOrder tag h := by
  cases e with
  | wrote i t => exact ordered.1
  | marked | took | refused | answered | turned => exact ordered

namespace Steady

theorem start : Steady u before store [] (.start before store) where
  graphs tag := by
    change before.get? tag = (before.get? tag).map fun g => g
    rw [Option.map_id']
  entries tag g found := rfl
  requests i := ⟨absurd rfl, nofun, absurd rfl⟩
  present i g member := by cases member
  newest i tag ordered member := by cases member

theorem quiet (steady : Steady u before store h s) (unmarked : ∀ i, e ≠ .marked i)
    (unwritten : ∀ i tag, e ≠ .wrote i tag) (store' : Store) (entries : store'.entries = s.store.entries)
    {stage : ι → Stage} (requests : ∀ i, Follows u before (e :: h) i (stage i)) :
    Steady u before store (e :: h) ⟨s.graphs, store', stage⟩ where
  graphs tag := by
    simp only [marks_cons_other unmarked]
    exact steady.graphs tag
  entries tag g found := by
    rw [writtenAt_cons_other fun i => unwritten i tag]
    exact entries ▸ steady.entries tag g found
  requests := requests
  present i g member := steady.present i g (List.mem_of_ne_of_mem (unmarked i).symm member)
  newest i tag ordered member := by
    rw [writtenAt_cons_other fun i => unwritten i tag]
    exact steady.newest i tag (inOrder_of_cons ordered)
      (List.mem_of_ne_of_mem (unwritten i tag).symm member)

theorem mark {g g' : Graph} (steady : Steady u before store h s) (found : s.graphs.get? (u i).tag = some g)
    (marked : g.setFailed (u i).name (u i).failed = .ok g') :
    Steady u before store (.marked i :: h) { s with
      graphs := s.graphs.insert (u i).tag g'
      stage := Function.update s.stage i (.keeping s.graphs.keys) } := by
  obtain ⟨g₀, first, rfl⟩ := Option.map_eq_some_iff.mp ((steady.graphs _).symm.trans found)
  refine ⟨?_, steady.entries, ?_, ?_, ?_⟩
  · intro tag
    dsimp only
    by_cases same : (u i).tag = tag
    · subst same
      rw [Dict.get?_insert_self, first, Option.map_some, marks, if_pos rfl,
        Graph.mark_of_setFailed _ _ _ marked]
    · rw [Dict.get?_insert_of_ne _ (Ne.symm same), steady.graphs]
      simp only [marks, if_neg same]
  · refine requests_update steady.requests (by nofun) ⟨?_, nofun, ?_⟩
    · exact fun _ => List.mem_cons_self
    · intro _ tag known
      rw [← Dict.get?_isSome_iff] at known
      left
      rw [Stage.left, ← Dict.get?_isSome_iff, steady.graphs, Option.isSome_map]
      exact known
  · intro j g member now
    rcases List.mem_cons.mp member with same | earlier
    · cases same
      obtain rfl := Option.some.inj (first.symm.trans now)
      have present := Graph.isSome_of_setFailed _ _ _ marked
      rwa [canonicalName_marks, isSome_get?_marks] at present
    · exact steady.present j g earlier now
  · intro j tag ordered member
    exact steady.newest j tag ordered (List.mem_of_ne_of_mem (by simp) member)

theorem write {text : String} {tags : List String} {store' : Store} (differ : KeysDiffer before.keys)
    (steady : Steady u before store h s) (here : s.stage i = .writing tag text tags)
    (taken : s.store.put (storeKey tag) text = .ok store') :
    Steady u before store (.wrote i tag :: h)
      { s with store := store', stage := Function.update s.stage i (.keeping tags) } := by
  obtain ⟨inside, g₀, first, rfl⟩ := (steady.requests i).taken tag text tags here
  have put : store'.entries = s.store.entries.insert (storeKey tag)
      (marks u tag g₀ (takenAt i tag h)).atom.encode := by
    rw [Store.put] at taken
    split at taken
    · cases taken
    · cases taken
      rfl
  refine ⟨steady.graphs, ?_, ?_, ?_, ?_⟩
  · intro tag' g found
    dsimp only
    rw [put]
    by_cases same : tag = tag'
    · subst same
      obtain rfl := Option.some.inj (first.symm.trans found)
      rw [Dict.get?_insert_self, writtenAt, if_pos rfl]
      rfl
    · have known : ∀ {t g}, before.get? t = some g → t ∈ before.keys := fun found =>
        (Dict.get?_isSome_iff ..).mp (Option.isSome_of_eq_some found)
      rw [Dict.get?_insert_of_ne, writtenAt, if_neg same]
      · exact steady.entries tag' g found
      · exact fun equal => same (differ _ (known first) _ (known found) equal.symm)
  · refine requests_update steady.requests (by simp) ⟨?_, by simp, ?_⟩
    · exact fun _ => List.mem_cons_of_mem _ ((steady.requests i).marked (by simp [here]))
    · intro _ tag' known
      have left := (steady.requests i).left (by simp [here]) tag' known
      rw [here, Stage.left, List.mem_cons] at left
      rcases left with (rfl | left) | wrote | refused
      · exact .inr (.inl List.mem_cons_self)
      · exact .inl left
      · exact .inr (.inl (List.mem_cons_of_mem _ wrote))
      · exact .inr (.inr (List.mem_cons_of_mem _ refused))
  · intro j g member
    exact steady.present j g (List.mem_of_ne_of_mem (by simp) member)
  · intro j tag' ordered member
    by_cases same : tag = tag'
    · subst same
      refine ⟨takenAt i tag h, by rw [writtenAt, if_pos rfl], ?_⟩
      rcases List.mem_cons.mp member with equal | earlier
      · cases equal
        exact inside
      · obtain ⟨older, written, contains⟩ := steady.newest j tag ordered.1 earlier
        exact (ordered.2 rfl older written).subset contains
    · rw [writtenAt, if_neg same]
      refine steady.newest j tag' ordered.1 (List.mem_of_ne_of_mem ?_ member)
      simp [Ne.symm same]

theorem step (differ : KeysDiffer before.keys) (steady : Steady u before store h s)
    (next : Step u s e s') : Steady u before store (e :: h) s' := by
  cases next with
  | mark here found marked => exact steady.mark found marked
  | write here taken => exact steady.write differ here taken
  | turn fault =>
    have requests : ∀ i, Follows u before (.turned :: h) i (s.stage i) := fun i =>
      (steady.requests i).cons (by simp)
    exact steady.quiet (by simp) (by simp) { s.store with putFault := fault } rfl requests
  | @take i tag tags g here member found =>
    have follows := steady.requests i
    rw [here] at follows
    obtain ⟨g₀, first, rfl⟩ := Option.map_eq_some_iff.mp ((steady.graphs _).symm.trans found)
    refine steady.quiet (by simp) (by simp) s.store rfl (requests_update steady.requests ?_ ⟨?_, ?_, ?_⟩)
    · rintro j tag ⟨⟩
      rfl
    · exact fun _ => List.mem_cons_of_mem _ (follows.marked (by simp))
    · rintro tag text tags ⟨⟩
      rw [takenAt, if_pos rfl]
      exact ⟨follows.marked (by simp), g₀, first, rfl⟩
    · intro _ tag' known
      rcases follows.left (by simp) tag' known with left | wrote | refused
      · by_cases same : tag' = tag
        · exact .inl (same ▸ List.mem_cons_self)
        · exact .inl (List.mem_cons_of_mem _ ((List.mem_erase_of_ne same).mpr left))
      · exact .inr (.inl (List.mem_cons_of_mem _ wrote))
      · exact .inr (.inr (List.mem_cons_of_mem _ refused))
  | @refuse i tag text tags f here refused =>
    have follows := steady.requests i
    rw [here] at follows
    refine steady.quiet (by simp) (by simp) s.store rfl (requests_update steady.requests (by nofun)
      ⟨fun _ => List.mem_cons_of_mem _ (follows.marked (by simp)), nofun, ?_⟩)
    intro _ tag' known
    rcases follows.left (by simp) tag' known with left | wrote | refused
    · rcases List.mem_cons.mp left with rfl | left
      · exact .inr (.inr List.mem_cons_self)
      · exact .inl left
    · exact .inr (.inl (List.mem_cons_of_mem _ wrote))
    · exact .inr (.inr (List.mem_cons_of_mem _ refused))
  | @answer i here =>
    have follows := steady.requests i
    rw [here] at follows
    refine steady.quiet (by simp) (by simp) s.store rfl (requests_update steady.requests (by nofun)
      ⟨fun _ => List.mem_cons_of_mem _ (follows.marked (by simp)), nofun, ?_⟩)
    intro _ tag' known
    exact (follows.left (by simp) tag' known).imp_right
      (Or.imp (List.mem_cons_of_mem _) (List.mem_cons_of_mem _))

theorem run (differ : KeysDiffer before.keys) (run : Run u (.start before store) h s) :
    Steady u before store h s := by
  induction run with
  | start => exact start
  | step _ next ih => exact ih.step differ next

/-- The marks in the store are those from before the text that was written last was taken. -/
theorem storedMark_eq (steady : Steady u before store h s) (found : before.get? tag = some g)
    (apart : Apart u tag g) (here : (u i).tag = tag) (p : Platform) :
    storedMark s.store tag p (g.canonicalName (u i).name) =
      (writtenAt tag h).elim (storedMark store tag p (g.canonicalName (u i).name)) fun h' =>
        (g.atom.packages.get? (g.canonicalName (u i).name)).map fun q =>
          if .marked i ∈ h' then (u i).failed else q.failed := by
  have entry := steady.entries tag g found
  cases written : writtenAt tag h with
  | none =>
    rw [written, Option.elim_none] at entry
    rw [Option.elim_none, storedMark, storedMark, entry]
  | some h' =>
    rw [written, Option.elim_some] at entry
    rw [Option.elim_some, storedMark_of_entry entry, failed_marks apart here]

end Steady

theorem marks_stored {p : Platform} (differ : KeysDiffer before.keys) (found : before.get? tag = some g)
    (apart : Apart u tag g) (run : Run u (.start before store) h s) (answered : s.Answered) :
    (∀ i, (u i).tag = tag → storedMark s.store tag p (g.canonicalName (u i).name) =
      (writtenAt tag h).elim (storedMark store tag p (g.canonicalName (u i).name)) fun h' =>
        (g.atom.packages.get? (g.canonicalName (u i).name)).map fun q =>
          if .marked i ∈ h' then (u i).failed else q.failed) ∧
    (InOrder tag h → (∀ i, .refused i tag ∉ h) → ∀ i, (u i).tag = tag →
      storedMark s.store tag p (g.canonicalName (u i).name) = some (u i).failed) := by
  have steady := Steady.run differ run
  refine ⟨fun i here => steady.storedMark_eq found apart here p, ?_⟩
  intro ordered accepted i here
  have known : tag ∈ before.keys := (Dict.get?_isSome_iff ..).mp (Option.isSome_of_eq_some found)
  have follows := steady.requests i
  rw [answered i] at follows
  have wrote : .wrote i tag ∈ h := by
    rcases follows.left nofun tag known with left | wrote | refused
    · cases left
    · exact wrote
    · exact absurd refused (accepted i)
  obtain ⟨h', written, inside⟩ := steady.newest i tag ordered wrote
  obtain ⟨q, present⟩ := Option.isSome_iff_exists.mp
    (steady.present i g (follows.marked nofun) (here ▸ found))
  rw [steady.storedMark_eq found apart here, written, Option.elim_some, present, Option.map_some,
    if_pos inside]

/-! ### Two requests -/

def desk : Graph where
  tap := ⟨"/tap"⟩
  atom :=
    { platform := .host
      packages := .ofList [("app", { name := "app" }), ("lib", { name := "lib" })] }

def desks : Dict String Graph := .ofList [("x86_64_linux", desk)]

def both (i : Bool) : Request := ⟨"x86_64_linux", if i then "lib" else "app", true⟩

theorem desks_found : desks.get? "x86_64_linux" = some desk := rfl

theorem desks_differ : KeysDiffer desks.keys := by
  intro a first b second _
  rw [List.mem_singleton.mp first, List.mem_singleton.mp second]

theorem desk_names : desk.canonicalName "app" = "app" ∧ desk.canonicalName "lib" = "lib" := by
  decide

theorem desk_unfailed : (desk.atom.packages.get? "lib").map (·.failed) = some false := by
  decide

theorem both_apart : Apart both "x86_64_linux" desk := by
  have different : desk.canonicalName "app" ≠ desk.canonicalName "lib" := by decide
  intro i j _ _ same
  cases i <;> cases j
  · rfl
  · exact absurd same different
  · exact absurd same.symm different
  · rfl

theorem answered_both {s : State Bool} (first : s.stage false = .answered)
    (second : s.stage true = .answered) : s.Answered := by
  intro i
  cases i
  · exact first
  · exact second

def begun : List (Event Bool) := [.marked true, .took false "x86_64_linux", .marked false]

def orderly : List (Event Bool) :=
  .answered true :: .answered false :: .wrote true "x86_64_linux" :: .took true "x86_64_linux" ::
    .wrote false "x86_64_linux" :: begun

def overtaken : List (Event Bool) :=
  .answered true :: .answered false :: .wrote false "x86_64_linux" :: .wrote true "x86_64_linux" ::
    .took true "x86_64_linux" :: begun

def obstructed : List (Event Bool) :=
  .answered true :: .answered false :: .refused true "x86_64_linux" :: .turned ::
    .took true "x86_64_linux" :: .wrote false "x86_64_linux" :: begun

theorem run_begun : ∃ s, Run both (.start desks {}) begun s ∧ s.store = {} ∧
    (∃ g, s.graphs.get? "x86_64_linux" = some g) ∧ s.stage true = .keeping ["x86_64_linux"] ∧
    ∃ text, s.stage false = .writing "x86_64_linux" text [] := by
  have app := Graph.setFailed_eq_mark desk "app" true (by decide)
  have lib := Graph.setFailed_eq_mark (desk.mark "app" true) "lib" true (by decide)
  have marked : Run both (.start desks {}) [.marked false] _ := .step .start (.mark rfl desks_found app)
  have taken : Run both (.start desks {}) [.took false "x86_64_linux", .marked false] _ :=
    marked.step (.take rfl List.mem_cons_self (Dict.get?_insert_self ..))
  refine ⟨_, taken.step (.mark rfl (Dict.get?_insert_self ..) lib), rfl, ?_, rfl, _, rfl⟩
  exact ⟨_, Dict.get?_insert_self ..⟩

theorem run_orderly : ∃ s, Run both (.start desks {}) orderly s ∧ s.Answered := by
  obtain ⟨s, run, store, ⟨g, found⟩, second, text, first⟩ := run_begun
  have wrote := run.step (.write first (by rw [store]; rfl))
  have took := wrote.step (.take (i := true) second List.mem_cons_self found)
  have written := took.step (.write (i := true) rfl rfl)
  have answered := (written.step (.answer (i := false) rfl)).step (.answer (i := true) rfl)
  exact ⟨_, answered, answered_both rfl rfl⟩

theorem run_overtaken : ∃ s, Run both (.start desks {}) overtaken s ∧ s.Answered := by
  obtain ⟨s, run, store, ⟨g, found⟩, second, text, first⟩ := run_begun
  have took := run.step (.take (i := true) second List.mem_cons_self found)
  have wrote := took.step (.write (i := true) rfl (by rw [store]; rfl))
  have written := wrote.step (.write (i := false) first rfl)
  have answered := (written.step (.answer (i := false) rfl)).step (.answer (i := true) rfl)
  exact ⟨_, answered, answered_both rfl rfl⟩

theorem run_obstructed : ∃ s, Run both (.start desks {}) obstructed s ∧ s.Answered := by
  obtain ⟨s, run, store, ⟨g, found⟩, second, text, first⟩ := run_begun
  have wrote := run.step (.write first (by rw [store]; rfl))
  have took := wrote.step (.take (i := true) second List.mem_cons_self found)
  have turned := took.step (.turn (some (.told "disk full")))
  have refused := turned.step (.refuse (i := true) rfl rfl)
  have answered := (refused.step (.answer (i := false) rfl)).step (.answer (i := true) rfl)
  exact ⟨_, answered, answered_both rfl rfl⟩

/-- Both marks are in the store after texts that were written in order. -/
theorem both_stored : ∃ s, Run both (.start desks {}) orderly s ∧ s.Answered ∧
    storedMark s.store "x86_64_linux" .host "app" = some true ∧
    storedMark s.store "x86_64_linux" .host "lib" = some true := by
  obtain ⟨s, run, answered⟩ := run_orderly
  have ordered : InOrder "x86_64_linux" orderly := by
    refine ⟨⟨trivial, fun _ older none => nomatch none⟩, fun _ older written => ?_⟩
    cases written
    decide
  have stored := (marks_stored (p := .host) desks_differ desks_found both_apart run answered).2
    ordered (by decide)
  exact ⟨s, run, answered, desk_names.1 ▸ stored false rfl, desk_names.2 ▸ stored true rfl⟩

/-- Both requests are answered, and yet the mark of the second is not in the store: the text that the
first took before it is written last, or its own text is refused. -/
theorem marks_lost :
    (∃ s, Run both (.start desks {}) overtaken s ∧ s.Answered ∧
      storedMark s.store "x86_64_linux" .host "lib" = some false) ∧
    ∃ s, Run both (.start desks {}) obstructed s ∧ s.Answered ∧
      storedMark s.store "x86_64_linux" .host "lib" = some false := by
  have lost : ∀ h s, Run both (.start desks {}) h s → writtenAt "x86_64_linux" h = some [.marked false] →
      storedMark s.store "x86_64_linux" .host "lib" = some false := by
    intro h s run written
    have stored := (Steady.run desks_differ run).storedMark_eq desks_found both_apart
      (i := true) rfl .host
    have name : desk.canonicalName (both true).name = "lib" := desk_names.2
    rw [written, name] at stored
    exact stored.trans desk_unfailed
  obtain ⟨s, run, answered⟩ := run_overtaken
  obtain ⟨s', run', answered'⟩ := run_obstructed
  exact ⟨⟨s, run, answered, lost _ s run (by decide)⟩, s', run', answered', lost _ s' run' (by decide)⟩

end Marking

end Taproom
