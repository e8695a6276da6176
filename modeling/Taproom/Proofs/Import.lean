import Taproom.Manager.Basic
import Taproom.Proofs.Tap

/-!
What importing a tap does to a graph. Each name that is imported gets what the tap says of it, the
others keep what they have, so that importing what changed is as good as importing everything.
-/

namespace Taproom

open Disk (Place)
open Tap (Content placeOf tableOf)

/-- A package without what is said of its bottle: whether it is there and whether it was tried. -/
def Package.recipe (p : Package) : Package := { p with dirty := false, failed := false }

theorem Tap.has_of_load {t : Tap} {d : Disk} {n : String} {f : Formula} (loaded : t.load d n = .ok f) :
    t.has d n = true := by
  cases found : t.find d n with
  | error fault =>
    rw [load, found] at loaded
    cases loaded
  | ok p =>
    rw [has, found]
    rfl

namespace Graph

variable {d d' : Disk} {g : Graph} {t : Tap} {content content' : Content} {base base' : Place}
  {n : String}

def recipe? (platform : Platform) (aliases : Dict String String) (t : Tap) (d : Disk) (n : String) :
    Option Package :=
  (packageOf { platform, aliases } d t n).toOption.map Package.recipe

def recipeAt? (g : Graph) (n : String) : Option Package := (g.atom.packages.get? n).map Package.recipe

theorem packageOf_eq_ok {atom : Atom} {p : Package} (made : packageOf atom d t n = .ok p) :
    ∃ f, t.load d n = .ok f ∧ Formula.isName n = true := by
  cases loaded : t.load d n with
  | error fault =>
    rw [packageOf, loaded] at made
    cases made
  | ok f =>
    rw [packageOf, loaded] at made
    simp only [bind, Except.bind, Except.mapError] at made
    split at made
    · rename_i fine
      have sound := List.isEmpty_iff.mp fine
      rcases Formula.name_of_sound sound with empty | same
      · rw [empty, Tap.load, Tap.find, if_pos rfl] at loaded
        cases loaded
      · exact ⟨f, rfl, same ▸ Formula.isName_of_sound sound⟩
    · cases made

/-! ### One name after the other -/

/-- Two graphs differ in their packages and in what is bad at most. -/
structure SameFrame (g g' : Graph) : Prop where
  tap : g'.tap = g.tap
  platform : g'.atom.platform = g.atom.platform
  rev : g'.atom.rev = g.atom.rev
  aliases : g'.atom.aliases = g.atom.aliases

theorem SameFrame.refl (g : Graph) : SameFrame g g := ⟨rfl, rfl, rfl, rfl⟩

theorem SameFrame.trans {g g' g'' : Graph} (first : SameFrame g g') (second : SameFrame g' g'') :
    SameFrame g g'' :=
  ⟨second.tap.trans first.tap, second.platform.trans first.platform, second.rev.trans first.rev,
    second.aliases.trans first.aliases⟩

theorem importName_frame (d : Disk) (g : Graph) (n : String) : SameFrame g (importName d g n) := by
  rw [importName]
  split
  · split <;> exact ⟨rfl, rfl, rfl, rfl⟩
  · exact ⟨rfl, rfl, rfl, rfl⟩

theorem recipe_keepFailure (old : Option Package) (p : Package) :
    (keepFailure old p).recipe = p.recipe := by
  unfold keepFailure
  split
  · split <;> rfl
  · rfl

theorem recipeAt?_importName (d : Disk) (g : Graph) (n m : String) :
    (importName d g n).recipeAt? m =
      if m = n then recipe? g.atom.platform g.atom.aliases g.tap d n else g.recipeAt? m := by
  have dropped : ∀ packages : Dict String Package, ((packages.erase n).get? m).map Package.recipe =
      if m = n then none else (packages.get? m).map Package.recipe := by
    intro packages
    by_cases same : m = n
    · rw [if_pos same, same, Dict.get?_erase_self]
      rfl
    · rw [if_neg same, Dict.get?_erase_of_ne _ same]
  have shape : recipe? g.atom.platform g.atom.aliases g.tap d n =
      (packageOf g.atom d g.tap n).toOption.map Package.recipe := rfl
  rw [shape, importName]
  split
  · cases made : packageOf g.atom d g.tap n with
    | error why => exact dropped g.atom.packages
    | ok p =>
      dsimp only [recipeAt?]
      by_cases same : m = n
      · rw [if_pos same, same, Dict.get?_insert_self, Option.map_some, recipe_keepFailure]
        rfl
      · rw [if_neg same, Dict.get?_insert_of_ne _ same]
  · rename_i absent
    have fails : (packageOf g.atom d g.tap n).toOption = none := by
      cases made : packageOf g.atom d g.tap n with
      | error why => rfl
      | ok p =>
        obtain ⟨f, loaded, -⟩ := packageOf_eq_ok made
        rw [Tap.has_of_load loaded] at absent
        exact absurd rfl absent
    rw [fails]
    exact dropped g.atom.packages

theorem importNames_frame (d : Disk) (g : Graph) (names : List String) :
    SameFrame g (importNames d g names) := by
  induction names generalizing g with
  | nil => exact .refl g
  | cons n names ih => exact (importName_frame d g n).trans (ih (importName d g n))

theorem importAll_frame (d : Disk) (g : Graph) : SameFrame g (importAll d g) :=
  importNames_frame d g _

theorem recipeAt?_importNames (d : Disk) (g : Graph) (names : List String) (m : String) :
    (importNames d g names).recipeAt? m =
      if m ∈ names then recipe? g.atom.platform g.atom.aliases g.tap d m else g.recipeAt? m := by
  induction names generalizing g with
  | nil => rfl
  | cons n names ih =>
    have frame := importName_frame d g n
    rw [importNames, List.foldl_cons, ← importNames, ih, frame.platform, frame.aliases, frame.tap,
      recipeAt?_importName]
    by_cases later : m ∈ names
    · simp [later]
    · by_cases same : m = n
      · simp [same]
      · simp [later, same]

/-! ### The tap as it is on a disk -/

theorem recipe?_congr (platform : Platform) (aliases : Dict String String)
    (shows : t.ShowsAt content base d) (shows' : t.ShowsAt content' base' d')
    (same : ∀ rest, content.get? (placeOf rest n) = content'.get? (placeOf rest n)) :
    recipe? platform aliases t d n = recipe? platform aliases t d' n := by
  by_cases named : Formula.isName n = true
  · have literal := Tap.isLiteral_of_isName named
    rw [recipe?, recipe?, packageOf, packageOf, shows.load_congr shows' literal same]
  · have nothing : ∀ d, recipe? platform aliases t d n = none := by
      intro d
      rw [recipe?]
      cases made : packageOf { platform, aliases } d t n with
      | error why => rfl
      | ok p => exact absurd (packageOf_eq_ok made).choose_spec.2 named
    rw [nothing, nothing]

theorem recipe?_eq_none (platform : Platform) (aliases : Dict String String)
    (shows : t.ShowsAt content base d) (absent : ¬ Tap.Holds content n) :
    recipe? platform aliases t d n = none := by
  rw [recipe?]
  cases made : packageOf { platform, aliases } d t n with
  | error why => rfl
  | ok p =>
    obtain ⟨f, loaded, named⟩ := packageOf_eq_ok made
    exact absurd (shows.holds_of_load named loaded) absent

/-- After everything was imported a graph holds what the tap says of its formulae. What it holds
beside them it held before. -/
theorem recipeAt?_importAll (g : Graph) (shows : g.tap.ShowsAt content base d) (n : String) :
    (importAll d g).recipeAt? n = recipe? g.atom.platform g.atom.aliases g.tap d n ∨
      ¬ Tap.Holds content n ∧ (importAll d g).recipeAt? n = g.recipeAt? n := by
  rw [importAll, recipeAt?_importNames]
  split
  · exact Or.inl rfl
  · rename_i unlisted
    refine Or.inr ⟨?_, rfl⟩
    rintro ⟨named, rest, file⟩
    exact unlisted (shows.mem_paths (Tap.isLiteral_of_isName named) file)

theorem check_frame (g : Graph) : SameFrame g g.check.2 := ⟨rfl, rfl, rfl, rfl⟩

/-- An atom agrees with what a tap holds: its aliases are those of the tap, and so is what it says of
every formula of the tap. If it is strict, it says nothing else. -/
structure Agrees (strict : Prop) (t : Tap) (content : Content) (a : Atom) : Prop where
  aliases : a.aliases = tableOf content
  current : ∀ n, Tap.Holds content n → ∀ base d, t.ShowsAt content base d →
    (a.packages.get? n).map Package.recipe = recipe? a.platform a.aliases t d n
  nothingElse : strict → ∀ n, ¬ Tap.Holds content n → a.packages.get? n = none

theorem agrees_importAll {strict : Prop} (g : Graph) (shows : g.tap.ShowsAt content base d)
    (aliases : g.atom.aliases = tableOf content)
    (before : strict → ∀ n, ¬ Tap.Holds content n → g.atom.packages.get? n = none) :
    Agrees strict g.tap content (importAll d g).atom := by
  have frame := importAll_frame d g
  refine ⟨frame.aliases.trans aliases, ?_, ?_⟩
  · intro n holds base' d' shows'
    rw [frame.platform, frame.aliases]
    rcases recipeAt?_importAll g shows n with said | ⟨absent, -⟩
    · exact said.trans (recipe?_congr _ _ shows shows' fun _ => rfl)
    · exact absurd holds absent
  · intro isStrict n absent
    have nothing : (importAll d g).recipeAt? n = none := by
      rcases recipeAt?_importAll g shows n with said | ⟨-, kept⟩
      · rw [said, recipe?_eq_none _ _ shows absent]
      · rw [kept, recipeAt?, before isStrict n absent]
        rfl
    exact Option.map_eq_none_iff.mp nothing

theorem agrees_importNames {strict : Prop} (g : Graph) {names : List String}
    (shows : g.tap.ShowsAt content base d) (shows' : g.tap.ShowsAt content' base' d')
    (agrees : Agrees strict g.tap content g.atom) (table : tableOf content = tableOf content')
    (changed : ∀ n, Formula.isName n → n ∉ names →
      ∀ rest, content.get? (placeOf rest n) = content'.get? (placeOf rest n)) :
    Agrees strict g.tap content' (importNames d' g names).atom := by
  have frame := importNames_frame d' g names
  have said := recipeAt?_importNames d' g names
  have unchanged : ∀ n, n ∉ names → (Tap.Holds content n ↔ Tap.Holds content' n) := by
    intro n unlisted
    refine and_congr_right fun named => exists_congr fun rest => ?_
    rw [changed n named unlisted rest]
  refine ⟨frame.aliases.trans (agrees.aliases.trans table), ?_, ?_⟩
  · intro n holds base'' d'' shows''
    rw [frame.platform, frame.aliases]
    refine (said n).trans ?_
    split
    · exact recipe?_congr _ _ shows' shows'' fun _ => rfl
    · rename_i unlisted
      rw [recipeAt?, agrees.current n ((unchanged n unlisted).mpr holds) base d shows]
      exact recipe?_congr _ _ shows shows'' (changed n holds.1 unlisted)
  · intro isStrict n absent
    have nothing : (importNames d' g names).recipeAt? n = none := by
      rw [said]
      split
      · exact recipe?_eq_none _ _ shows' absent
      · rename_i unlisted
        have before := agrees.nothingElse isStrict n
          fun holds => absent ((unchanged n unlisted).mp holds)
        rw [recipeAt?, before]
        rfl
    exact Option.map_eq_none_iff.mp nothing

end Graph

end Taproom
