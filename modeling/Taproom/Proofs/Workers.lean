import Mathlib.Algebra.BigOperators.Group.Finset.Basic
import Mathlib.Data.Fintype.Basic
import Mathlib.Logic.Relation
import Taproom.Proofs.Import

/-!
Importing with several workers. The names go through a channel to the workers of a pool, who read the
formulae and change the graph in two parts, one for what is bad and one for the packages. Names
whose formulae went away are taken out by the one who fills the channel, in two parts as well. In
whatever order the parts come, the graph is in the end what it is if the names are imported one
after the other.
-/

namespace Taproom

open Relation (ReflTransGen)

namespace Graph

variable {d : Disk} {g g' : Graph} {n : String}

/-! ### The parts of an import -/

def setBad (g : Graph) (n : String) (why : Option String) : Graph :=
  { g with atom := { g.atom with
    bad := match why with
      | some why => g.atom.bad.insert n why
      | none => g.atom.bad.erase n } }

def setPackage (g : Graph) (n : String) (p : Option Package) : Graph :=
  { g with atom := { g.atom with
    packages := match p with
      | some p => g.atom.packages.insert n (keepFailure (g.atom.packages.get? n) p)
      | none => g.atom.packages.erase n } }

def whyBad : Except String Package → Option String
  | .ok _ => none
  | .error why => some why

def bad? (d : Disk) (g : Graph) (n : String) : Option String :=
  if g.tap.has d n then whyBad (packageOf g.atom d g.tap n) else none

def made? (d : Disk) (g : Graph) (n : String) : Option Package :=
  if g.tap.has d n then (packageOf g.atom d g.tap n).toOption else none

inductive Part where
  | bad (n : String)
  | package (n : String)
deriving DecidableEq

namespace Part

def name : Part → String
  | bad n => n
  | package n => n

def apply (d : Disk) (g : Graph) : Part → Graph
  | bad n => g.setBad n (bad? d g n)
  | package n => g.setPackage n (made? d g n)

def both (n : String) : List Part := [bad n, package n]

@[simp] theorem mem_both {part : Part} : part ∈ both n ↔ part.name = n := by
  cases part <;> simp [both, name]

end Part

theorem importName_eq (d : Disk) (g : Graph) (n : String) :
    importName d g n = (Part.both n).foldl (Part.apply d) g := by
  have frame : ∀ bad, (g.setBad n bad).tap = g.tap ∧
      packageOf (g.setBad n bad).atom d g.tap n = packageOf g.atom d g.tap n :=
    fun bad => ⟨rfl, rfl⟩
  simp only [Part.both, List.foldl_cons, List.foldl_nil, Part.apply, bad?, made?, frame]
  rw [importName]
  split
  · cases packageOf g.atom d g.tap n <;> rfl
  · rfl

theorem importNames_eq (d : Disk) (g : Graph) (names : List String) :
    importNames d g names = (names.flatMap Part.both).foldl (Part.apply d) g := by
  induction names generalizing g with
  | nil => rfl
  | cons n names ih =>
    rw [importNames, List.foldl_cons, ← importNames, ih, importName_eq, List.flatMap_cons,
      List.foldl_append]

theorem setBad_frame (g : Graph) (n : String) (why : Option String) : SameFrame g (g.setBad n why) :=
  ⟨rfl, rfl, rfl, rfl⟩

theorem setPackage_frame (g : Graph) (n : String) (p : Option Package) :
    SameFrame g (g.setPackage n p) :=
  ⟨rfl, rfl, rfl, rfl⟩

theorem apply_frame (d : Disk) (g : Graph) (part : Part) : SameFrame g (part.apply d g) := by
  cases part with
  | bad n => exact setBad_frame ..
  | package n => exact setPackage_frame ..

theorem packageOf_frame (frame : SameFrame g g') (d : Disk) (n : String) :
    packageOf g'.atom d g'.tap n = packageOf g.atom d g.tap n := by
  have shape : ∀ g : Graph, packageOf g.atom d g.tap n =
      packageOf { platform := g.atom.platform, aliases := g.atom.aliases } d g.tap n := fun _ => rfl
  rw [shape, shape, frame.platform, frame.aliases, frame.tap]

theorem bad?_frame (frame : SameFrame g g') (d : Disk) (n : String) : bad? d g' n = bad? d g n := by
  rw [bad?, bad?, packageOf_frame frame, frame.tap]

theorem made?_frame (frame : SameFrame g g') (d : Disk) (n : String) :
    made? d g' n = made? d g n := by
  rw [made?, made?, packageOf_frame frame, frame.tap]

/-! ### Any order of the parts -/

theorem get?_setBad (g : Graph) (n m : String) (why : Option String) :
    (g.setBad n why).atom.bad.get? m = if m = n then why else g.atom.bad.get? m := by
  by_cases same : m = n
  · rw [if_pos same, same]
    cases why with
    | none => exact Dict.get?_erase_self ..
    | some why => exact Dict.get?_insert_self ..
  · rw [if_neg same]
    cases why with
    | none => exact Dict.get?_erase_of_ne _ same
    | some why => exact Dict.get?_insert_of_ne _ same _

theorem get?_setPackage (g : Graph) (n m : String) (p : Option Package) :
    (g.setPackage n p).atom.packages.get? m =
      if m = n then p.map (keepFailure (g.atom.packages.get? n)) else g.atom.packages.get? m := by
  by_cases same : m = n
  · rw [if_pos same, same]
    cases p with
    | none => exact Dict.get?_erase_self ..
    | some p => exact Dict.get?_insert_self ..
  · rw [if_neg same]
    cases p with
    | none => exact Dict.get?_erase_of_ne _ same
    | some p => exact Dict.get?_insert_of_ne _ same _

theorem keepFailure_idem (old : Option Package) (p : Package) :
    keepFailure (some (keepFailure old p)) p = keepFailure old p := by
  cases old with
  | none => simp [keepFailure]
  | some o => by_cases same : o.version = p.version <;> simp [keepFailure, same]

theorem get?_bad_parts (d : Disk) (g : Graph) (parts : List Part) (m : String) :
    (parts.foldl (Part.apply d) g).atom.bad.get? m =
      if .bad m ∈ parts then bad? d g m else g.atom.bad.get? m := by
  induction parts generalizing g with
  | nil => rfl
  | cons part parts ih =>
    have step : (part.apply d g).atom.bad.get? m =
        if .bad m = part then bad? d g m else g.atom.bad.get? m := by
      cases part with
      | bad n =>
        rw [Part.apply, get?_setBad]
        by_cases same : m = n <;> simp [same]
      | package n => rfl
    rw [List.foldl_cons, ih, bad?_frame (apply_frame d g part), step]
    by_cases later : .bad m ∈ parts <;> simp [later]

/-- The packages after some parts were done, in whatever order and however often. -/
theorem get?_packages_parts (d : Disk) (g : Graph) (parts : List Part) (m : String) :
    (parts.foldl (Part.apply d) g).atom.packages.get? m =
      if .package m ∈ parts then (made? d g m).map (keepFailure (g.atom.packages.get? m))
      else g.atom.packages.get? m := by
  induction parts generalizing g with
  | nil => rfl
  | cons part parts ih =>
    have step : (part.apply d g).atom.packages.get? m =
        if .package m = part then (made? d g m).map (keepFailure (g.atom.packages.get? m))
        else g.atom.packages.get? m := by
      cases part with
      | bad n => rfl
      | package n =>
        rw [Part.apply, get?_setPackage]
        by_cases same : m = n <;> simp [same]
    rw [List.foldl_cons, ih, made?_frame (apply_frame d g part), step]
    by_cases later : .package m ∈ parts
    · by_cases now : .package m = part
      · cases made? d g m with
        | none => simp [later]
        | some p => simp [now, keepFailure_idem]
      · simp [later, now]
    · simp [later]

theorem parts_frame (d : Disk) (g : Graph) (parts : List Part) :
    SameFrame g (parts.foldl (Part.apply d) g) := by
  induction parts generalizing g with
  | nil => exact .refl g
  | cons part parts ih => exact (apply_frame d g part).trans (ih (part.apply d g))

theorem SameFrame.ext {g₁ g₂ : Graph} (frame₁ : SameFrame g g₁) (frame₂ : SameFrame g g₂)
    (packages : ∀ n, g₁.atom.packages.get? n = g₂.atom.packages.get? n)
    (bad : ∀ n, g₁.atom.bad.get? n = g₂.atom.bad.get? n) : g₁ = g₂ := by
  obtain ⟨tap₁, atom₁⟩ := g₁
  obtain ⟨tap₂, atom₂⟩ := g₂
  obtain ⟨tap, platform, rev, aliases⟩ := frame₁
  obtain ⟨tap', platform', rev', aliases'⟩ := frame₂
  cases atom₁
  cases atom₂
  simp only [Graph.mk.injEq, Atom.mk.injEq]
  exact ⟨tap.trans tap'.symm, platform.trans platform'.symm, rev.trans rev'.symm,
    Dict.ext_get? packages, aliases.trans aliases'.symm, Dict.ext_get? bad⟩

/-- The order of the parts does not matter, and neither does how often one is done. -/
theorem parts_congr (d : Disk) (g : Graph) {parts parts' : List Part}
    (same : ∀ part, part ∈ parts ↔ part ∈ parts') :
    parts.foldl (Part.apply d) g = parts'.foldl (Part.apply d) g := by
  refine SameFrame.ext (parts_frame d g parts) (parts_frame d g parts') ?_ ?_
  · intro n
    simp only [get?_packages_parts, same]
  · intro n
    simp only [get?_bad_parts, same]

theorem get?_importNames (d : Disk) (g : Graph) (names : List String) (m : String) :
    (importNames d g names).atom.packages.get? m =
      if m ∈ names then (made? d g m).map (keepFailure (g.atom.packages.get? m))
      else g.atom.packages.get? m := by
  have member : .package m ∈ names.flatMap Part.both ↔ m ∈ names := by simp [Part.name]
  simp only [importNames_eq, get?_packages_parts, member]

/-! ### A pool of workers -/

/-- A formula in a worker's hands, with the package that it makes or why it makes none. -/
inductive Task where
  | read (n : String) (made : Except String Package)
  /-- It was written down already whether the formula is bad. -/
  | noted (n : String) (made : Except String Package)

def Task.parts : Option Task → List Part
  | some (.read n _) => Part.both n
  | some (.noted n _) => [.package n]
  | none => []

@[simp] theorem Task.mem_parts_read {made : Except String Package} {part : Part} :
    part ∈ Task.parts (some (.read n made)) ↔ part = .bad n ∨ part = .package n := by
  simp [parts, Part.both]

@[simp] theorem Task.mem_parts_noted {made : Except String Package} {part : Part} :
    part ∈ Task.parts (some (.noted n made)) ↔ part = .package n := by
  simp [parts]

@[simp] theorem Task.notMem_parts_none {part : Part} : part ∉ Task.parts none := by
  simp [parts]

/-- An import by a number of workers on its way. -/
structure Pool (workers : Nat) where
  graph : Graph
  ahead : List String
  /-- A name whose package was taken out while what is bad about it is still there. -/
  leaving : Option String := none
  channel : List String := []
  hands : Fin workers → Option Task := fun _ => none

namespace Pool

variable {workers room : Nat} {s s' : Pool workers} {names : List String}

def ready (workers : Nat) (g : Graph) (names : List String) : Pool workers :=
  { graph := g, ahead := names }

structure IsOver (s : Pool workers) : Prop where
  ahead : s.ahead = []
  leaving : s.leaving = none
  channel : s.channel = []
  hands : ∀ i, s.hands i = none

/-- What can happen next, if there is room for some names in the channel. A change to what is bad or
to the packages happens at once; between two of them anybody may be next. -/
inductive Step (d : Disk) (room : Nat) : Pool workers → Pool workers → Prop where
  | drop {s : Pool workers} {n : String} {rest : List String} (next : s.ahead = n :: rest)
      (free : s.leaving = none) (gone : s.graph.tap.has d n = false) :
      Step d room s { s with graph := s.graph.setPackage n none, ahead := rest, leaving := some n }
  | dropped {s : Pool workers} {n : String} (leaving : s.leaving = some n) :
      Step d room s { s with graph := s.graph.setBad n none, leaving := none }
  | offer {s : Pool workers} {n : String} {rest : List String} (next : s.ahead = n :: rest)
      (free : s.leaving = none) (there : s.graph.tap.has d n = true)
      (fits : s.channel.length < room) :
      Step d room s { s with ahead := rest, channel := s.channel ++ [n] }
  | take {s : Pool workers} {n : String} {rest : List String} {i : Fin workers}
      (next : s.channel = n :: rest) (idle : s.hands i = none) :
      Step d room s { s with
        channel := rest
        hands := Function.update s.hands i
          (some (.read n (packageOf s.graph.atom d s.graph.tap n))) }
  | note {s : Pool workers} {n : String} {made : Except String Package} {i : Fin workers}
      (holds : s.hands i = some (.read n made)) :
      Step d room s { s with
        graph := s.graph.setBad n (whyBad made)
        hands := Function.update s.hands i (some (.noted n made)) }
  | place {s : Pool workers} {n : String} {made : Except String Package} {i : Fin workers}
      (holds : s.hands i = some (.noted n made)) :
      Step d room s { s with
        graph := s.graph.setPackage n made.toOption
        hands := Function.update s.hands i none }

theorem Step.frame (step : Step d room s s') : SameFrame s.graph s'.graph := by
  cases step with
  | drop next free gone => exact setPackage_frame s.graph _ none
  | dropped leaving => exact setBad_frame s.graph _ none
  | offer next free there fits => exact .refl s.graph
  | take next idle => exact .refl s.graph
  | note holds => exact setBad_frame s.graph _ _
  | place holds => exact setPackage_frame s.graph _ _

def Awaits (s : Pool workers) (part : Part) : Prop :=
  part.name ∈ s.ahead ∨ (∃ n, s.leaving = some n ∧ part = .bad n) ∨ part.name ∈ s.channel ∨
    ∃ i, part ∈ Task.parts (s.hands i)

structure Informed (d : Disk) (s : Pool workers) : Prop where
  leaving : ∀ n, s.leaving = some n → s.graph.tap.has d n = false
  channel : ∀ n ∈ s.channel, s.graph.tap.has d n = true
  read : ∀ i n made, s.hands i = some (.read n made) →
    s.graph.tap.has d n = true ∧ made = packageOf s.graph.atom d s.graph.tap n
  noted : ∀ i n made, s.hands i = some (.noted n made) →
    s.graph.tap.has d n = true ∧ made = packageOf s.graph.atom d s.graph.tap n

theorem ready_informed (d : Disk) (g : Graph) (names : List String) :
    Informed d (ready workers g names) where
  leaving _ leaving := nomatch leaving
  channel _ member := nomatch member
  read _ _ _ holds := nomatch holds
  noted _ _ _ holds := nomatch holds

theorem hands_update {i j : Fin workers} {t t' : Option Task}
    (holds : Function.update s.hands i t j = t') : i = j ∧ t = t' ∨ s.hands j = t' := by
  by_cases same : j = i
  · subst same
    rw [Function.update_self] at holds
    exact .inl ⟨rfl, holds⟩
  · rw [Function.update_of_ne same] at holds
    exact .inr holds

theorem Step.informed (step : Step d room s s') (informed : Informed d s) : Informed d s' := by
  have frame := step.frame
  suffices known : (∀ n, s'.leaving = some n → s.graph.tap.has d n = false) ∧
      (∀ n ∈ s'.channel, s.graph.tap.has d n = true) ∧
      (∀ i n made, s'.hands i = some (.read n made) →
        s.graph.tap.has d n = true ∧ made = packageOf s.graph.atom d s.graph.tap n) ∧
      ∀ i n made, s'.hands i = some (.noted n made) →
        s.graph.tap.has d n = true ∧ made = packageOf s.graph.atom d s.graph.tap n by
    obtain ⟨leaving, channel, read, noted⟩ := known
    constructor
    · rwa [frame.tap]
    · rwa [frame.tap]
    · intro i n made holds
      rw [packageOf_frame frame, frame.tap]
      exact read i n made holds
    · intro i n made holds
      rw [packageOf_frame frame, frame.tap]
      exact noted i n made holds
  cases step with
  | drop next free gone =>
    exact ⟨fun n leaves => Option.some.inj leaves ▸ gone, informed.channel, informed.read,
      informed.noted⟩
  | dropped leaving =>
    exact ⟨fun n leaves => (nomatch leaves), informed.channel, informed.read, informed.noted⟩
  | offer next free there fits =>
    refine ⟨informed.leaving, ?_, informed.read, informed.noted⟩
    intro n member
    rcases List.mem_append.mp member with member | member
    · exact informed.channel n member
    · rwa [List.mem_singleton.mp member]
  | @take n rest i next idle =>
    have there : ∀ m ∈ n :: rest, s.graph.tap.has d m = true := next ▸ informed.channel
    refine ⟨informed.leaving, fun m member => there m (List.mem_cons_of_mem n member), ?_, ?_⟩
    · intro j m made holds
      rcases hands_update holds with ⟨-, own⟩ | other
      · cases own
        exact ⟨there n List.mem_cons_self, rfl⟩
      · exact informed.read j m made other
    · intro j m made holds
      exact informed.noted j m made ((hands_update holds).resolve_left fun own => nomatch own.2)
  | @note n made i mine =>
    refine ⟨informed.leaving, informed.channel, ?_, ?_⟩
    · intro j m made' holds
      exact informed.read j m made' ((hands_update holds).resolve_left fun own => nomatch own.2)
    · intro j m made' holds
      rcases hands_update holds with ⟨-, own⟩ | other
      · cases own
        exact informed.read i n made mine
      · exact informed.noted j m made' other
  | @place n made i mine =>
    refine ⟨informed.leaving, informed.channel, ?_, ?_⟩
    · intro j m made' holds
      exact informed.read j m made' ((hands_update holds).resolve_left fun own => nomatch own.2)
    · intro j m made' holds
      exact informed.noted j m made' ((hands_update holds).resolve_left fun own => nomatch own.2)

theorem exists_hands_update (s : Pool workers) (i : Fin workers) (t : Option Task) (part : Part) :
    ∃ others : Prop,
      ((∃ j, part ∈ Task.parts (s.hands j)) ↔ part ∈ Task.parts (s.hands i) ∨ others) ∧
      ((∃ j, part ∈ Task.parts (Function.update s.hands i t j)) ↔
        part ∈ Task.parts t ∨ others) := by
  refine ⟨∃ j, j ≠ i ∧ part ∈ Task.parts (s.hands j), ?_, ?_⟩
  · constructor
    · rintro ⟨j, member⟩
      by_cases same : j = i
      · exact .inl (same ▸ member)
      · exact .inr ⟨j, same, member⟩
    · rintro (member | ⟨j, -, member⟩)
      · exact ⟨i, member⟩
      · exact ⟨j, member⟩
  · constructor
    · rintro ⟨j, member⟩
      by_cases same : j = i
      · rw [same, Function.update_self] at member
        exact .inl member
      · rw [Function.update_of_ne same] at member
        exact .inr ⟨j, same, member⟩
    · rintro (member | ⟨j, ne, member⟩)
      · exact ⟨i, by rwa [Function.update_self]⟩
      · exact ⟨j, by rwa [Function.update_of_ne ne]⟩

/-- A step hands a name on, or it does one of the parts that somebody has yet to do. -/
theorem Step.cases_parts (step : Step d room s s') (informed : Informed d s) :
    (s'.graph = s.graph ∧ ∀ part, s.Awaits part ↔ s'.Awaits part) ∨
      ∃ done : Part, s'.graph = done.apply d s.graph ∧
        ∀ part, s.Awaits part ↔ part = done ∨ s'.Awaits part := by
  cases step with
  | @drop n rest next free gone =>
    refine .inr ⟨.package n, ?_, ?_⟩
    · simp [Part.apply, made?, gone]
    · intro part
      simp only [Awaits, next, free]
      cases part <;> grind [Part.name]
  | @dropped n leaving =>
    refine .inr ⟨.bad n, ?_, ?_⟩
    · simp [Part.apply, bad?, informed.leaving n leaving]
    · intro part
      simp only [Awaits, leaving]
      grind
  | @offer n rest next free there fits =>
    refine .inl ⟨rfl, ?_⟩
    intro part
    simp only [Awaits, next, List.mem_cons, List.mem_append, List.not_mem_nil]
    grind
  | @take n rest i next idle =>
    refine .inl ⟨rfl, ?_⟩
    intro part
    obtain ⟨others, before, after⟩ := exists_hands_update s i
      (some (.read n (packageOf s.graph.atom d s.graph.tap n))) part
    simp only [Awaits, before, after, next, idle, Task.mem_parts_read, Task.notMem_parts_none,
      List.mem_cons]
    cases part <;> grind [Part.name]
  | @note n made i holds =>
    obtain ⟨there, rfl⟩ := informed.read i n made holds
    refine .inr ⟨.bad n, ?_, ?_⟩
    · simp [Part.apply, bad?, there]
    · intro part
      obtain ⟨others, before, after⟩ := exists_hands_update s i
        (some (.noted n (packageOf s.graph.atom d s.graph.tap n))) part
      simp only [Awaits, before, after, holds, Task.mem_parts_read, Task.mem_parts_noted]
      grind
  | @place n made i holds =>
    obtain ⟨there, rfl⟩ := informed.noted i n made holds
    refine .inr ⟨.package n, ?_, ?_⟩
    · simp [Part.apply, made?, there]
    · intro part
      obtain ⟨others, before, after⟩ := exists_hands_update s i none part
      simp only [Awaits, before, after, holds, Task.mem_parts_noted, Task.notMem_parts_none]
      grind

/-- An import of some names on its way: some parts are done, and what is not done somebody has yet
to do. -/
structure Underway (d : Disk) (g : Graph) (names : List String) (s : Pool workers) : Prop where
  informed : Informed d s
  done : ∃ parts : List Part, s.graph = parts.foldl (Part.apply d) g ∧
    ∀ part, part.name ∈ names ↔ part ∈ parts ∨ s.Awaits part

theorem ready_underway (d : Disk) (g : Graph) (names : List String) :
    Underway d g names (ready workers g names) where
  informed := ready_informed d g names
  done := by
    refine ⟨[], rfl, ?_⟩
    intro part
    simp [Awaits, ready, Task.parts]

theorem Step.underway (step : Step d room s s') (underway : Underway d g names s) :
    Underway d g names s' := by
  obtain ⟨informed, parts, reached, split⟩ := underway
  refine ⟨step.informed informed, ?_⟩
  rcases step.cases_parts informed with ⟨same, awaits⟩ | ⟨done, result, awaits⟩
  · exact ⟨parts, same.trans reached, fun part => by rw [split, awaits]⟩
  · refine ⟨parts ++ [done], ?_, ?_⟩
    · rw [List.foldl_append, ← reached, result]
      rfl
    · intro part
      rw [split, awaits, List.mem_append, List.mem_singleton, or_assoc]

theorem underway_of_run (run : ReflTransGen (Step d room) (ready workers g names) s) :
    Underway d g names s := by
  induction run with
  | refl => exact ready_underway d g names
  | tail _ step ih => exact step.underway ih

theorem IsOver.awaits (isOver : s.IsOver) (part : Part) : ¬ s.Awaits part := by
  simp [Awaits, isOver.ahead, isOver.leaving, isOver.channel, isOver.hands, Task.parts]

theorem Underway.eq_importNames (underway : Underway d g names s) (isOver : s.IsOver)
    {distinct : List String} (same : ∀ n, n ∈ distinct ↔ n ∈ names) :
    s.graph = importNames d g distinct := by
  obtain ⟨-, parts, reached, split⟩ := underway
  rw [reached, importNames_eq]
  refine parts_congr d g ?_
  intro part
  have done := split part
  rw [or_iff_left (isOver.awaits part)] at done
  simp [← done, same]

/-! ### Coming to an end -/

def Task.weight : Option Task → Nat
  | some (.read ..) => 2
  | some (.noted ..) => 1
  | none => 0

def weight (s : Pool workers) : Nat :=
  4 * s.ahead.length + s.leaving.toList.length + 3 * s.channel.length +
    ∑ i, Task.weight (s.hands i)

theorem sum_weight_update (s : Pool workers) (i : Fin workers) (t : Option Task) :
    (∑ j, Task.weight (Function.update s.hands i t j)) + Task.weight (s.hands i) =
      (∑ j, Task.weight (s.hands j)) + Task.weight t := by
  have others : ∑ j ∈ Finset.univ.erase i, Task.weight (Function.update s.hands i t j) =
      ∑ j ∈ Finset.univ.erase i, Task.weight (s.hands j) :=
    Finset.sum_congr rfl fun j member => by
      rw [Function.update_of_ne (Finset.ne_of_mem_erase member)]
  rw [← Finset.add_sum_erase _ _ (Finset.mem_univ i), ← Finset.add_sum_erase _ _ (Finset.mem_univ i),
    others, Function.update_self]
  omega

theorem Step.weight_lt (step : Step d room s s') : s'.weight < s.weight := by
  cases step with
  | drop next free gone => simp [weight, next, free]; omega
  | dropped leaving => simp [weight, leaving]
  | offer next free there fits => simp [weight, next]; omega
  | @take n rest i next idle =>
    have hands := sum_weight_update s i (some (.read n (packageOf s.graph.atom d s.graph.tap n)))
    simp only [weight, next, idle, Task.weight, List.length_cons] at hands ⊢
    omega
  | @note n made i holds =>
    have hands := sum_weight_update s i (some (.noted n made))
    simp only [weight, holds, Task.weight] at hands ⊢
    omega
  | @place n made i holds =>
    have hands := sum_weight_update s i none
    simp only [weight, holds, Task.weight] at hands ⊢
    omega

theorem exists_step (manned : 0 < workers) (spacious : 0 < room) (s : Pool workers) :
    s.IsOver ∨ ∃ s', Step d room s s' := by
  by_cases busy : ∃ i t, s.hands i = some t
  · obtain ⟨i, t, holds⟩ := busy
    cases t with
    | read n made => exact .inr ⟨_, .note holds⟩
    | noted n made => exact .inr ⟨_, .place holds⟩
  have idle : ∀ i, s.hands i = none := by
    intro i
    by_contra holds
    exact busy ⟨i, Option.ne_none_iff_exists'.mp holds⟩
  cases leaving : s.leaving with
  | some n => exact .inr ⟨_, .dropped leaving⟩
  | none =>
    cases channel : s.channel with
    | cons n rest => exact .inr ⟨_, .take channel (idle ⟨0, manned⟩)⟩
    | nil =>
      cases ahead : s.ahead with
      | nil => exact .inl ⟨ahead, leaving, channel, idle⟩
      | cons n rest =>
        cases there : s.graph.tap.has d n with
        | false => exact .inr ⟨_, .drop ahead leaving there⟩
        | true => exact .inr ⟨_, .offer ahead leaving there (by rwa [channel])⟩

theorem exists_over (d : Disk) (manned : 0 < workers) (spacious : 0 < room) (s : Pool workers) :
    ∃ s', ReflTransGen (Step d room) s s' ∧ s'.IsOver := by
  induction left : s.weight using Nat.strong_induction_on generalizing s with
  | _ w ih =>
    rcases exists_step (d := d) manned spacious s with isOver | ⟨s', step⟩
    · exact ⟨s, .refl, isOver⟩
    · obtain ⟨s'', run, isOver⟩ := ih s'.weight (left ▸ step.weight_lt) s' rfl
      exact ⟨s'', .head step run, isOver⟩

/-- Whatever the workers of a pool do next to each other, an import ends with the graph that comes of
importing the names one after the other, each once or more often and in any order. Wherever it
stands, it can be brought to an end. -/
theorem confluent (run : ReflTransGen (Step d room) (ready workers g names) s) :
    (s.IsOver → ∀ distinct, (∀ n, n ∈ distinct ↔ n ∈ names) →
      s.graph = importNames d g distinct) ∧
    (0 < workers → 0 < room → ∃ s', ReflTransGen (Step d room) s s' ∧ s'.IsOver) :=
  ⟨fun isOver _ same => (underway_of_run run).eq_importNames isOver same,
    fun manned spacious => exists_over d manned spacious s⟩

def oneFormula : Disk where
  tree := .ofList [(["tap"], .dir 0o755), (["tap", "Formula"], .dir 0o755),
    (["tap", "Formula", "lib.yml"], .file 0)]
  bodies := .ofList
    [(0, ⟨"name: lib\ndesc: d\nhomepage: h\nversion: v\ngit:\n url: u\n tag: v\n".toUTF8, 0o644⟩)]
  nextBody := 1

/-- Two workers import a formula that is named twice and one that the tap does not have. -/
theorem twoWorkers_confluent : ∃ s : Pool 2,
    ReflTransGen (Step oneFormula 200) (ready 2 (fresh ⟨"/tap"⟩ .host) ["lib", "lib", "app"]) s ∧
      s.IsOver ∧ s.graph = importNames oneFormula (fresh ⟨"/tap"⟩ .host) ["app", "lib"] := by
  have start : ReflTransGen (Step oneFormula 200)
      (ready 2 (fresh ⟨"/tap"⟩ .host) ["lib", "lib", "app"]) _ := .refl
  obtain ⟨s, run, isOver⟩ := (confluent start).2 (by decide) (by decide)
  refine ⟨s, run, isOver, (confluent run).1 isOver _ ?_⟩
  intro n
  simp only [List.mem_cons, List.not_mem_nil]
  grind

end Pool

end Graph

end Taproom
