import Taproom.Proofs.Stamps

/-!
Importing what changed in a tap. A graph that mirrors a tap, as a fresh one does after it got the
aliases and every formula, mirrors the tap also when the tap has changed and the paths that changed
were imported. What a name is worth depends on what lies in the tap under that name and on nothing
else, wherever it lies and whether it is a file at all.
-/

namespace Taproom

open Disk (Place Tree)
open Taproom.Path (relative)
open PathPattern (IsLiteral)
open Tap (placeOf)

namespace Graph

variable {t : Tap} {platform : Platform} {base base' : Place} {d d' : Disk} {g f : Graph} {n : String}
  {paths : List String} {aliases : Dict String String}

/-! ### What a tap says of a name -/

theorem recipe?_of_load (platform : Platform) (aliases : Dict String String)
    (same : (t.load d n).toOption = (t.load d' n).toOption) :
    recipe? platform aliases t d n = recipe? platform aliases t d' n := by
  rw [recipe?, recipe?, packageOf, packageOf]
  rcases ok_or_error_of_toOption same with ⟨f, first, second⟩ | ⟨e, e', first, second⟩
  · rw [first, second]
  · rw [first, second]
    rfl

theorem recipe?_of_not_isName (platform : Platform) (aliases : Dict String String) (t : Tap) (d : Disk)
    (unnamed : Formula.isName n ≠ true) : recipe? platform aliases t d n = none := by
  rw [recipe?]
  cases made : packageOf { platform, aliases } d t n with
  | error why => rfl
  | ok p => exact absurd (packageOf_eq_ok made).choose_spec.2 unnamed

theorem recipe?_of_seen (platform : Platform) (aliases : Dict String String)
    (tree : Tree t.path base d) (tree' : Tree t.path base' d')
    (same : Formula.isName n = true → ∀ rest,
      d.seen? (base ++ placeOf rest n) = d'.seen? (base' ++ placeOf rest n)) :
    recipe? platform aliases t d n = recipe? platform aliases t d' n := by
  by_cases named : Formula.isName n = true
  · exact recipe?_of_load platform aliases
      (tree.toOption_load_congr tree' (Tap.isLiteral_of_isName named) (same named))
  · rw [recipe?_of_not_isName _ _ t d named, recipe?_of_not_isName _ _ t d' named]

theorem recipeAt?_importAll_of_empty (tree : Tree f.tap.path base d) (empty : f.atom.packages = {})
    (n : String) :
    (importAll d f).recipeAt? n = recipe? f.atom.platform f.atom.aliases f.tap d n := by
  rw [importAll, recipeAt?_importNames]
  split
  · rfl
  · rename_i unlisted
    rw [recipeAt?, empty, recipe?]
    cases made : packageOf { platform := f.atom.platform, aliases := f.atom.aliases } d f.tap n with
    | error why => rfl
    | ok p =>
      obtain ⟨formula, loaded, named⟩ := packageOf_eq_ok made
      have literal := Tap.isLiteral_of_isName named
      have found := Tap.has_of_load loaded
      rw [Tap.has] at found
      cases finds : f.tap.find d n with
      | error fault =>
        rw [finds] at found
        cases found
      | ok p =>
        obtain ⟨rest, present, -⟩ := tree.find_eq_ok literal finds
        exact absurd (tree.mem_paths literal present) unlisted

/-! ### Graphs that mirror a tap -/

/-- A graph says of every formula what a fresh one says after it got the aliases and everything else
of a tap, but for what becomes of bottles. -/
structure Mirrors (t : Tap) (platform : Platform) (d : Disk) (g : Graph) : Prop where
  isTap : g.tap = t
  isPlatform : g.atom.platform = platform
  imported : ∃ f, (fresh t platform).loadAliases d = .ok f ∧ g.atom.aliases = f.atom.aliases ∧
    ∀ n, g.recipeAt? n = (importAll d f).recipeAt? n

theorem loadAliases_fresh_iff (t : Tap) (platform : Platform) (d : Disk) :
    (fresh t platform).loadAliases d = .ok f ↔
      (t.aliases d).toOption = some f.atom.aliases ∧
        f = Manager.withAliases (fresh t platform) f.atom.aliases := by
  rw [loadAliases]
  cases loaded : t.aliases d with
  | error fault => simp [fresh, loaded, Except.map, Except.toOption]
  | ok table =>
    simp only [fresh, loaded, Except.map, Except.toOption, Except.ok.injEq, Option.some.injEq,
      Manager.withAliases]
    constructor
    · rintro rfl
      exact ⟨rfl, rfl⟩
    · rintro ⟨rfl, same⟩
      exact same.symm

/-- What mirrors a tap says what the tap says. -/
theorem mirrors_iff (tree : Tree t.path base d) :
    Mirrors t platform d g ↔ g.tap = t ∧ g.atom.platform = platform ∧
      (t.aliases d).toOption = some g.atom.aliases ∧
      ∀ n, g.recipeAt? n = recipe? platform g.atom.aliases t d n := by
  constructor
  · rintro ⟨tap, isPlatform, f, loaded, aliases, same⟩
    obtain ⟨table, shape⟩ := (loadAliases_fresh_iff t platform d).mp loaded
    refine ⟨tap, isPlatform, aliases ▸ table, ?_⟩
    intro n
    have isTap : f.tap = t := by rw [shape]; rfl
    rw [same, recipeAt?_importAll_of_empty (isTap ▸ tree) (by rw [shape]; rfl), aliases, isTap]
    congr 1
    rw [shape]
    rfl
  · rintro ⟨tap, isPlatform, table, same⟩
    refine ⟨tap, isPlatform, Manager.withAliases (fresh t platform) g.atom.aliases, ?_, rfl, ?_⟩
    · rw [loadAliases_fresh_iff]
      exact ⟨table, rfl⟩
    · intro n
      have imported := recipeAt?_importAll_of_empty
        (f := Manager.withAliases (fresh t platform) g.atom.aliases) tree rfl n
      exact (same n).trans imported.symm

/-- Every place of a formula where two taps differ is among some paths. -/
def Covers (paths : List String) (base : Place) (d : Disk) (base' : Place) (d' : Disk) : Prop :=
  ∀ rest n, d.seen? (base ++ placeOf rest n) ≠ d'.seen? (base' ++ placeOf rest n) →
    relative (placeOf rest n) ∈ paths

/-- A graph that mirrors a tap mirrors what becomes of the tap when the paths that changed are
imported, in any order and with any others, as long as the aliases stay as they are. -/
theorem mirrors_importChanged (tree : Tree t.path base d) (tree' : Tree t.path base' d')
    (mirrors : Mirrors t platform d g)
    (table : d.seen? (base ++ ["aliases"]) = d'.seen? (base' ++ ["aliases"]))
    (noAliases : ∀ p ∈ paths, Path.base p ≠ "aliases") (covers : Covers paths base d base' d') :
    ∃ g', g.importChanged d' paths = .ok g' ∧ Mirrors t platform d' g' := by
  obtain ⟨tap, isPlatform, aliases, same⟩ := (mirrors_iff tree).mp mirrors
  have others : (paths.any fun p => Path.base p == "aliases") = false := by simpa using noAliases
  refine ⟨importNames d' g ((paths.map Tap.nameOfPath).filter (· ≠ "")), ?_, ?_⟩
  · rw [importChanged, others]
    rfl
  have frame := importNames_frame d' g ((paths.map Tap.nameOfPath).filter (· ≠ ""))
  refine (mirrors_iff tree').mpr ⟨frame.tap.trans tap, frame.platform.trans isPlatform, ?_, ?_⟩
  · rw [frame.aliases, ← aliases, Tap.toOption_aliases tree, Tap.toOption_aliases tree', table]
  · intro n
    rw [recipeAt?_importNames, frame.aliases, isPlatform, tap]
    split
    · rfl
    · rename_i unread
      rw [same]
      refine recipe?_of_seen platform _ tree tree' ?_
      -- A name that is not read has no place where the taps differ.
      intro named rest
      by_contra differ
      apply unread
      rw [List.mem_filter, List.mem_map]
      refine ⟨⟨_, covers rest n differ, Tap.nameOfPath_placeOf (Tap.isLiteral_of_isName named) rest⟩, ?_⟩
      simpa using Formula.ne_empty_of_isName named

/-- A tap from which a formula goes away, and its graph. -/
theorem mirrors_without_lib : ∃ g g',
    Mirrors ⟨"/tap"⟩ .host (Manager.edition "r1") g ∧
      g.importChanged (Manager.edition "r2") ["README", "Formula/lib.yml", "Formula/lib.yml"] = .ok g' ∧
      Mirrors ⟨"/tap"⟩ .host (Manager.edition "r2") g' := by
  have tree := (Manager.edition_shows "r1").toTree
  have tree' := (Manager.edition_shows "r2").toTree
  have grown : (Manager.edition "r1").tree =
      (Manager.edition "r2").tree.insert ["tap", "Formula", "lib.yml"] (.file 1) :=
    Dict.ext_entries (by decide)
  have same : ∀ place, place ≠ ["tap", "Formula", "lib.yml"] →
      (Manager.edition "r1").seen? place = (Manager.edition "r2").seen? place := by
    intro place other
    rw [Disk.seen?, Disk.seen?, grown, Dict.get?_insert_of_ne _ other]
    rfl
  have noTable : (Manager.edition "r1").seen? (["tap"] ++ ["aliases"]) = none := by
    have absent : (Manager.edition "r1").tree.get? ["tap", "aliases"] = none := by decide
    exact congrArg (Option.map _) absent
  have loaded : (fresh ⟨"/tap"⟩ .host).loadAliases (Manager.edition "r1") =
      .ok (Manager.withAliases (fresh ⟨"/tap"⟩ .host) {}) := by
    rw [loadAliases_fresh_iff, Tap.toOption_aliases tree, noTable]
    exact ⟨rfl, rfl⟩
  have frame := importAll_frame (Manager.edition "r1") (Manager.withAliases (fresh ⟨"/tap"⟩ .host) {})
  have mirrors : Mirrors ⟨"/tap"⟩ .host (Manager.edition "r1") (importAll (Manager.edition "r1") _) :=
    ⟨frame.tap, frame.platform, _, loaded, frame.aliases, fun _ => rfl⟩
  have covers : Covers ["README", "Formula/lib.yml", "Formula/lib.yml"] ["tap"]
      (Manager.edition "r1") ["tap"] (Manager.edition "r2") := by
    intro rest n differ
    have place : ["tap"] ++ placeOf rest n = ["tap"] ++ ["Formula", "lib.yml"] := by
      by_contra other
      exact differ (same _ other)
    rw [List.append_cancel_left place]
    decide
  obtain ⟨g', changed, mirrors'⟩ :=
    mirrors_importChanged tree tree' mirrors (same _ (by decide)) (by decide) covers
  exact ⟨_, g', mirrors, changed, mirrors'⟩

end Graph

end Taproom
