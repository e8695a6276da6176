import Mathlib.Data.Fintype.Card
import Mathlib.Data.Set.Finite.Basic
import Mathlib.Logic.Function.Iterate
import Mathlib.Logic.Relation
import Taproom.Dispatch
import Taproom.Proofs.Dict

/-!
Building goes on. Unless a package that failed or is disabled stands below everything that needs
building, something can be built, and what is built round by round comes after all that it needs.
-/

namespace Taproom

open Relation (ReflTransGen TransGen)

namespace Atom

/-- The package `n` is built with `d` or runs with it. -/
def Needs (a : Atom) (n d : String) : Prop :=
  ∃ p, a.packages.get? n = some p ∧ (p.build.contains d ∨ p.run.contains d)

def IsDirty (a : Atom) (n : String) : Prop := ∃ p, a.packages.get? n = some p ∧ p.dirty

/-- The package `n` failed or is disabled, so that it is not built. -/
def IsHeld (a : Atom) (n : String) : Prop :=
  ∃ p, a.packages.get? n = some p ∧ (p.failed ∨ p.disabled)

def offers (a : Atom) (p : Package) : Bool := p.isWanted && a.isReady p

def IsOffered (a : Atom) (n : String) : Prop :=
  ∃ p, a.packages.get? n = some p ∧ a.offers p

/-- What packages need is known, and none of them needs itself. -/
structure IsBuildable (a : Atom) : Prop where
  closed : ∀ n d, a.Needs n d → a.packages.contains d
  acyclic : ∀ n, ¬ TransGen a.Needs n n

/-- `d` is needed by `n` and has to be built before. -/
def WaitsFor (a : Atom) (n d : String) : Prop := a.Needs n d ∧ a.IsDirty d

variable {a : Atom} {n d : String}

theorem mem_needs (p : Package) (d : String) :
    d ∈ p.needs ↔ p.build.contains d ∨ p.run.contains d := by
  rw [Package.needs, List.mem_append, Names.contains_iff, Names.contains_iff]

theorem isClean_iff (a : Atom) (n : String) :
    a.isClean n ↔ a.packages.contains n ∧ ¬ a.IsDirty n := by
  unfold isClean IsDirty Dict.contains
  cases a.packages.get? n with
  | none => simp
  | some p => simp

theorem offers_iff {p : Package} (found : a.packages.get? n = some p) :
    a.offers p ↔
      a.IsDirty n ∧ ¬ a.IsHeld n ∧ ∀ d, a.Needs n d → a.packages.contains d ∧ ¬ a.IsDirty d := by
  have dirty : a.IsDirty n ↔ p.dirty := by simp [IsDirty, found]
  have held : a.IsHeld n ↔ (p.failed ∨ p.disabled) := by simp [IsHeld, found]
  have needs : ∀ d, a.Needs n d ↔ d ∈ p.needs := by simp [Needs, found, mem_needs]
  simp only [dirty, held, needs, ← isClean_iff, offers, Package.isWanted, isReady, Bool.and_eq_true,
    List.all_eq_true, Bool.not_eq_true', not_or, Bool.not_eq_true, and_assoc]

theorem isOffered_iff (a : Atom) (n : String) :
    a.IsOffered n ↔
      a.IsDirty n ∧ ¬ a.IsHeld n ∧ ∀ d, a.Needs n d → a.packages.contains d ∧ ¬ a.IsDirty d := by
  constructor
  · rintro ⟨p, found, offered⟩
    exact (offers_iff found).mp offered
  · rintro ⟨⟨p, found, dirty⟩, rest⟩
    exact ⟨p, found, (offers_iff found).mpr ⟨⟨p, found, dirty⟩, rest⟩⟩

theorem mem_dispatchable (a : Atom) (name : String) :
    name ∈ a.dispatchable ↔ ∃ n p, a.packages.get? n = some p ∧ a.offers p ∧ p.name = name := by
  simp only [dispatchable, mem_sortNames, List.mem_map, List.mem_filter, Dict.mem_values_iff,
    offers]
  constructor
  · rintro ⟨p, ⟨⟨n, found⟩, offered⟩, rfl⟩
    exact ⟨n, p, found, offered, rfl⟩
  · rintro ⟨n, p, found, offered, rfl⟩
    exact ⟨p, ⟨⟨n, found⟩, offered⟩, rfl⟩

theorem dispatchable_ne_nil_iff (a : Atom) : a.dispatchable ≠ [] ↔ ∃ n, a.IsOffered n := by
  constructor
  · intro some
    obtain ⟨name, member⟩ := List.exists_mem_of_ne_nil _ some
    obtain ⟨n, p, found, offered, -⟩ := (mem_dispatchable a name).mp member
    exact ⟨n, p, found, offered⟩
  · rintro ⟨n, p, found, offered⟩
    exact List.ne_nil_of_mem ((mem_dispatchable a p.name).mpr ⟨n, p, found, offered, rfl⟩)

/-! ### Progress -/

/-- Packages are finitely many, so that going from need to need comes to an end. -/
theorem IsBuildable.induction (buildable : a.IsBuildable) {P : String → Prop}
    (step : ∀ n, (∀ d, a.Needs n d → P d) → P n) (n : String) : P n := by
  let Known := {n // n ∈ a.packages.keys}
  let r : Known → Known → Prop := fun d n => TransGen a.Needs n.1 d.1
  have finite : Finite Known := List.finite_toSet a.packages.keys
  have trans : IsTrans Known r := ⟨fun _ _ _ first second => second.trans first⟩
  have irrefl : Std.Irrefl r := ⟨fun n => buildable.acyclic n.1⟩
  have known : ∀ n : Known, P n.1 := by
    intro n
    induction n using (Finite.wellFounded_of_trans_of_irrefl r).induction with
    | _ n ih =>
      apply step
      intro d need
      have inside := (a.packages.contains_iff d).mp (buildable.closed n.1 d need)
      exact ih ⟨d, inside⟩ (.single need)
  apply step
  intro d need
  exact known ⟨d, (a.packages.contains_iff d).mp (buildable.closed n d need)⟩

/-- When nothing can be built, every package that needs building waits for one that is held. -/
theorem IsBuildable.held_of_stuck (buildable : a.IsBuildable) (stuck : ∀ n, ¬ a.IsOffered n)
    (n : String) (dirty : a.IsDirty n) :
    ∃ b, ReflTransGen a.WaitsFor n b ∧ a.IsDirty b ∧ a.IsHeld b := by
  induction n using buildable.induction with
  | _ n ih =>
    by_cases held : a.IsHeld n
    · exact ⟨n, .refl, dirty, held⟩
    · have blocked := stuck n
      rw [isOffered_iff] at blocked
      push Not at blocked
      obtain ⟨d, need, unclean⟩ := blocked dirty held
      have waits : a.IsDirty d := unclean (buildable.closed n d need)
      obtain ⟨b, path, found⟩ := ih d need waits
      exact ⟨b, path.head ⟨need, waits⟩, found⟩

/-! ### Rounds -/

def round (a : Atom) : Atom :=
  { a with packages := a.packages.map fun _ p => if a.offers p then { p with dirty := false } else p }

def dirtyCount (a : Atom) : Nat := (a.packages.values.filter (·.dirty)).length

theorem get?_round (a : Atom) (n : String) :
    a.round.packages.get? n =
      (a.packages.get? n).map fun p => if a.offers p then { p with dirty := false } else p :=
  Dict.get?_map ..

theorem round_needs (a : Atom) : a.round.Needs = a.Needs := by
  ext n d
  simp only [Needs, get?_round, Option.map_eq_some_iff]
  constructor
  · rintro ⟨_, ⟨p, found, rfl⟩, need⟩
    refine ⟨p, found, ?_⟩
    split at need <;> exact need
  · rintro ⟨p, found, need⟩
    refine ⟨_, ⟨p, found, rfl⟩, ?_⟩
    split <;> exact need

theorem round_isHeld (a : Atom) : a.round.IsHeld = a.IsHeld := by
  ext n
  simp only [IsHeld, get?_round, Option.map_eq_some_iff]
  constructor
  · rintro ⟨_, ⟨p, found, rfl⟩, held⟩
    refine ⟨p, found, ?_⟩
    split at held <;> exact held
  · rintro ⟨p, found, held⟩
    refine ⟨_, ⟨p, found, rfl⟩, ?_⟩
    split <;> exact held

theorem round_contains (a : Atom) (n : String) :
    a.round.packages.contains n = a.packages.contains n := by
  simp only [Dict.contains, get?_round, Option.isSome_map]

theorem IsBuildable.round (buildable : a.IsBuildable) : a.round.IsBuildable where
  closed n d need := by
    rw [round_contains]
    rw [round_needs] at need
    exact buildable.closed n d need
  acyclic n := by
    rw [round_needs]
    exact buildable.acyclic n

theorem offers_dirty {p : Package} (offered : a.offers p) : p.dirty := by
  simp only [offers, Package.isWanted, Bool.and_eq_true] at offered
  exact offered.1.1.1

theorem dirtyCount_round (a : Atom) :
    a.round.dirtyCount = (a.packages.values.filter (·.dirty)).countP fun p => !a.offers p := by
  have values : a.round.packages.values =
      a.packages.values.map fun p => if a.offers p then { p with dirty := false } else p := by
    simp [Dict.values, round, Dict.map, Function.comp_def]
  rw [dirtyCount, values, ← List.countP_eq_length_filter, List.countP_map, List.countP_filter]
  congr 1
  funext p
  by_cases offers : a.offers p <;> simp [offers]

theorem dirtyCount_round_le (a : Atom) : a.round.dirtyCount ≤ a.dirtyCount := by
  rw [dirtyCount_round, dirtyCount]
  exact List.countP_le_length

theorem dirtyCount_round_lt (offered : ∃ n, a.IsOffered n) : a.round.dirtyCount < a.dirtyCount := by
  rw [dirtyCount_round, dirtyCount, List.countP_lt_length_iff]
  obtain ⟨n, p, found, offers⟩ := offered
  refine ⟨p, List.mem_filter.mpr ⟨?_, offers_dirty offers⟩, by simp [offers]⟩
  exact (a.packages.mem_values_iff p).mpr ⟨n, found⟩

theorem dirtyCount_eq_zero_iff (a : Atom) : a.dirtyCount = 0 ↔ ∀ n, ¬ a.IsDirty n := by
  simp only [dirtyCount, List.length_eq_zero_iff, List.filter_eq_nil_iff, Dict.mem_values_iff,
    IsDirty]
  constructor
  · rintro none n ⟨p, found, dirty⟩
    exact none p ⟨n, found⟩ dirty
  · rintro none p ⟨n, found⟩ dirty
    exact none n ⟨p, found, dirty⟩

/-- With nothing held, every round builds something while something is left to build. -/
theorem IsBuildable.dirtyCount_rounds (buildable : a.IsBuildable) (free : ∀ n, ¬ a.IsHeld n)
    (k : Nat) : (Atom.round^[k] a).dirtyCount ≤ a.dirtyCount - k := by
  induction k generalizing a with
  | zero => exact Nat.le_refl _
  | succ k ih =>
    have rest := ih buildable.round (by rwa [round_isHeld])
    rw [Function.iterate_succ_apply]
    by_cases stuck : ∃ n, a.IsOffered n
    · have fewer := dirtyCount_round_lt stuck
      omega
    · push Not at stuck
      have clean : ∀ n, ¬ a.IsDirty n := by
        intro n dirty
        obtain ⟨b, -, -, held⟩ := buildable.held_of_stuck stuck n dirty
        exact free b held
      have none := (dirtyCount_eq_zero_iff a).mpr clean
      have fewer := dirtyCount_round_le a
      omega

theorem rounds_needs (a : Atom) (k : Nat) : (round^[k] a).Needs = a.Needs := by
  induction k generalizing a with
  | zero => rfl
  | succ k ih => rw [Function.iterate_succ_apply, ih, round_needs]

theorem isBuildable_of_rank (rank : String → Nat)
    (falls : ∀ e ∈ a.packages.toList, ∀ d ∈ e.2.needs,
      a.packages.contains d ∧ rank d < rank e.1) : a.IsBuildable := by
  have step : ∀ n d, a.Needs n d → a.packages.contains d ∧ rank d < rank n := by
    rintro n d ⟨p, found, need⟩
    exact falls (n, p) ((a.packages.get?_eq_some_iff n p).mp found) d ((mem_needs p d).mpr need)
  have below : ∀ n d, TransGen a.Needs n d → rank d < rank n := by
    intro n d path
    induction path with
    | single need => exact (step _ _ need).2
    | tail _ need ih => exact (step _ _ need).2.trans ih
  exact ⟨fun n d need => (step n d need).1, fun n path => Nat.lt_irrefl _ (below n n path)⟩

end Atom

/-- The answer for a platform is that of the last atom with its tag. -/
theorem dispatchableOf_get? (before after : List Atom) (a : Atom)
    (last : ∀ b ∈ after, b.platform.tag ≠ a.platform.tag) :
    (dispatchableOf (before ++ a :: after)).get? a.platform.tag = some a.dispatchable := by
  rw [dispatchableOf, List.map_append, List.map_cons]
  apply Dict.get?_ofList
  rw [List.map_map, List.mem_map]
  rintro ⟨b, member, same⟩
  exact last b member same

/-- Something is listed for a platform unless all that needs building waits for what is held. With
nothing held, as many rounds as there are packages to build leave none of them, and a package is
listed in a round only if all that it needs is clean. -/
theorem building_goes_on (before after : List Atom) (a : Atom)
    (last : ∀ b ∈ after, b.platform.tag ≠ a.platform.tag) (buildable : a.IsBuildable) :
    (∃ listed, (dispatchableOf (before ++ a :: after)).get? a.platform.tag = some listed ∧
      (listed ≠ [] ∨
        ∀ n, a.IsDirty n → ∃ b, ReflTransGen a.WaitsFor n b ∧ a.IsDirty b ∧ a.IsHeld b)) ∧
    ((∀ n, ¬ a.IsHeld n) → ∀ k, a.dirtyCount ≤ k → ∀ n, ¬ (Atom.round^[k] a).IsDirty n) ∧
    ∀ k, (∀ name, name ∈ (Atom.round^[k] a).dispatchable ↔
        ∃ n p, (Atom.round^[k] a).packages.get? n = some p ∧ p.name = name ∧
          (Atom.round^[k] a).IsOffered n) ∧
      ∀ n, (Atom.round^[k] a).IsOffered n → ∀ d, a.Needs n d → (Atom.round^[k] a).isClean d := by
  refine ⟨⟨_, dispatchableOf_get? before after a last, ?_⟩, ?_, ?_⟩
  · rw [Atom.dispatchable_ne_nil_iff, or_iff_not_imp_left]
    intro stuck
    push Not at stuck
    exact buildable.held_of_stuck stuck
  · intro free k enough
    have few := buildable.dirtyCount_rounds free k
    exact (Atom.dirtyCount_eq_zero_iff _).mp (by omega)
  · intro k
    constructor
    · intro name
      rw [Atom.mem_dispatchable]
      constructor
      · rintro ⟨n, p, found, offered, named⟩
        exact ⟨n, p, found, named, p, found, offered⟩
      · rintro ⟨n, p, found, named, q, same, offered⟩
        rw [found, Option.some.injEq] at same
        exact ⟨n, p, found, same ▸ offered, named⟩
    · intro n offered d need
      rw [← Atom.rounds_needs a k] at need
      exact (Atom.isClean_iff _ d).mpr (((Atom.isOffered_iff _ n).mp offered).2.2 d need)

/-- An application that waits for a library, which waits for a tool. -/
def backlog : Atom where
  platform := ⟨"x86_64", "linux"⟩
  packages := .ofList [
    ("app", { name := "app", dirty := true, run := .ofList ["lib", "zlib"] }),
    ("lib", { name := "lib", dirty := true, build := .ofList ["make"] }),
    ("make", { name := "make", dirty := true }),
    ("zlib", { name := "zlib" })]

theorem backlog_goes_on :
    backlog.IsBuildable ∧ (∀ n, ¬ backlog.IsHeld n) ∧ backlog.dirtyCount = 3 ∧
      (∃ listed, (dispatchableOf [backlog, { platform := ⟨"arm64", "linux"⟩ }]).get?
          "x86_64_linux" = some listed ∧ listed ≠ []) ∧
      ∀ n, ¬ (Atom.round^[3] backlog).IsDirty n := by
  have buildable : backlog.IsBuildable := by
    apply Atom.isBuildable_of_rank fun n => if n = "app" then 2 else if n = "lib" then 1 else 0
    decide
  have free : ∀ n, ¬ backlog.IsHeld n := by
    have all : ∀ e ∈ backlog.packages.toList, ¬ (e.2.failed ∨ e.2.disabled) := by decide
    rintro n ⟨p, found, held⟩
    exact all (n, p) ((backlog.packages.get?_eq_some_iff n p).mp found) held
  have count : backlog.dirtyCount = 3 := by decide
  have dirty : backlog.IsDirty "app" :=
    ⟨{ name := "app", dirty := true, run := .ofList ["lib", "zlib"] }, by cbv, rfl⟩
  obtain ⟨⟨listed, answer, some⟩, rounds, -⟩ := building_goes_on []
    [{ platform := ⟨"arm64", "linux"⟩ }] backlog (by decide) buildable
  refine ⟨buildable, free, count, ⟨listed, answer, ?_⟩, rounds free 3 count.le⟩
  rcases some with some | held
  · exact some
  · obtain ⟨b, -, -, held⟩ := held "app" dirty
    exact absurd held (free b)

end Taproom
