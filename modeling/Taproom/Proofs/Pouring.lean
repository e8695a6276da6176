import Taproom.Bottle.Keg
import Taproom.Proofs.Archives
import Taproom.Proofs.Sights

/-!
Kegs that go through bottles. What is poured from a bottle is what was packed into it.
-/

namespace Taproom

open Path (IsComponent relative)
open Disk (Place Entry IsName HasDir Site Sight Extends Made Clear namesOf)

namespace Disk

variable {d d' : Disk} {base : Place} {names rest : List String}

/-! ### Directories on a way -/

/-- Directories were made on a way from a place, and nothing else. -/
structure Opened (base : Place) (rest : List String) (d d' : Disk) : Prop where
  sound : d'.Sound
  grown : Extends d'.tree d.tree
  isDir : HasDir d'.tree (base ++ rest)
  others : ∀ q, (∀ l, l <+: rest → q ≠ base ++ l) → d'.sight? q = d.sight? q

theorem Sound.dir_above (sound : d.Sound) (isDir : HasDir d.tree (base ++ rest)) {l : List String}
    (front : l <+: rest) : HasDir d.tree (base ++ l) := by
  obtain ⟨more, rfl⟩ := front
  by_cases whole : more = []
  · rwa [whole, List.append_nil] at isDir
  · rw [← List.append_assoc] at isDir
    rcases isDir with root | ⟨mode, found⟩
    · exact Or.inl (List.append_eq_nil_iff.mp root).1
    · exact hasDir_above sound.inDir found whole

def Passable (d : Disk) (base : Place) (rest : List String) : Prop :=
  ∀ l s, l ≠ [] → l <+: rest → d.sight? (base ++ l) = some s → s = .dir

theorem Passable.dirs (passable : d.Passable base rest) (l : List String) (e : Entry) (long : l ≠ [])
    (front : l <+: rest) (found : d.tree.get? (base ++ l) = some e) : ∃ mode, e = .dir mode := by
  have notRoot : base ++ l ≠ [] := by simp [long]
  have isDir := passable l _ long front (sight?_of_get? notRoot found)
  rcases sight?_eq_dir_iff.mp ((sight?_of_get? notRoot found).trans (congrArg some isDir)) with
    root | ⟨mode, there⟩
  · exact absurd root notRoot
  · exact ⟨mode, Option.some.inj (found.symm.trans there)⟩

theorem Passable.clear (passable : d.Passable base rest) (follow : Bool) : Clear d.tree follow base rest := by
  intro before after target split long found
  obtain ⟨mode, isDir⟩ := passable.dirs before _ long (split ▸ List.prefix_append before after) found
  cases isDir

theorem Passable.concat {c : String} (passable : d.Passable base rest)
    (absent : d.sight? (base ++ (rest ++ [c])) = none) : d.Passable base (rest ++ [c]) := by
  intro l s long front shown
  rcases List.prefix_concat_iff.mp front with whole | before
  · rw [whole, absent] at shown
    cases shown
  · exact passable l s long before shown

namespace Site

theorem makeDirAll_opens (site : Site names base d) (named : ∀ c ∈ rest, IsName c)
    (passable : d.Passable base rest) (mode : Nat) :
    ∃ d', (Act.makeDirAll (Path.ofComponents (names ++ rest)) mode).run d = (.ok (), d') ∧
      Opened base rest d d' := by
  have components : ∀ c ∈ rest, IsComponent c.toList := fun c member => (named c member).1
  have enough : rest.length < (Path.ofComponents (names ++ rest)).length + 2 := by
    have := length_le_ofComponents (names ++ rest)
    rw [List.length_append] at this
    omega
  obtain ⟨d', ran, isDir⟩ := site.makeDirs_ok named passable.dirs enough mode
  have made := (makeDirs_made _ (site.components_append components) mode d ran).1
  refine ⟨d', ran, made.sound site.sound, made.grown, isDir, fun q apart => ?_⟩
  have bodies : d'.sightOf = d.sightOf := sightOf_congr (by rw [made.rest])
  rw [sight?, sight?, bodies, entry?, entry?]
  split
  · rfl
  · rename_i notRoot
    cases found : d'.tree.get? q with
    | none =>
      cases old : d.tree.get? q with
      | none => rfl
      | some e => cases found.symm.trans (made.grown q e old)
    | some e =>
      rcases site.made_new components (passable.clear true) made notRoot found with
        old | ⟨-, l, -, front, same⟩
      · rw [old]
      · exact absurd same (apart l front)

end Site

/-! ### Something new -/

/-- What is seen of something after it went through a bottle. Files without permissions get the usual
ones, and no file gets those that are masked. -/
def Sight.poured : Sight → Sight
  | .dir => .dir
  | .link target => .link target
  | .file content mode => .file content (masked (if mode % 512 = 0 then 0o644 else mode % 512))

structure Placed (base : Place) (rest : List String) (s : Sight) (d d' : Disk) : Prop where
  sound : d'.Sound
  grown : Extends d'.tree d.tree
  inDir : HasDir d'.tree (base ++ rest.dropLast)
  shown : d'.sight? (base ++ rest) = some s
  others : ∀ q, (∀ l, l <+: rest → q ≠ base ++ l) → d'.sight? q = d.sight? q

variable {init : List String} {c : String}

namespace Opened

theorem placed_dir (opened : Opened base rest d d') : Placed base rest .dir d d' where
  sound := opened.sound
  grown := opened.grown
  inDir := opened.sound.dir_above opened.isDir (List.dropLast_prefix rest)
  shown := sight?_eq_dir_iff.mpr opened.isDir
  others := opened.others

theorem placed {d'' : Disk} {s : Sight} (opened : Opened base init d d') (sound : d''.Sound)
    (grown : Extends d''.tree d'.tree)
    (sights : ∀ q, d''.sight? q = if q = base ++ (init ++ [c]) then some s else d'.sight? q) :
    Placed base (init ++ [c]) s d d'' where
  sound := sound
  grown p e found := grown p e (opened.grown p e found)
  inDir := by
    rw [List.dropLast_concat]
    exact opened.isDir.mono grown
  shown := by rw [sights, if_pos rfl]
  others q apart := by
    rw [sights, if_neg (apart _ List.prefix_rfl)]
    exact opened.others q fun l front => apart l (front.trans (List.prefix_append init [c]))

end Opened

theorem Site.vacant (site : Site names base d) (named : ∀ c' ∈ init ++ [c], IsName c')
    (isDir : HasDir d.tree (base ++ init)) (absent : d.sight? (base ++ (init ++ [c])) = none) :
    Vacant (Path.ofComponents (names ++ (init ++ [c]))) (base ++ (init ++ [c])) d := by
  obtain ⟨notRoot, free⟩ := sight?_eq_none_iff.mp absent
  have inDir : HasDir d.tree (base ++ (init ++ [c])).dropLast := by
    rwa [← List.append_assoc, List.dropLast_concat]
  refine ⟨site.sound, notRoot, free, inDir, fun follow => site.locate_ok (by simp) named inDir ?_⟩
  intro before after target split long found
  rcases List.prefix_concat_iff.mp (split ▸ List.prefix_append before after :
    before <+: init ++ [c]) with whole | front
  · rw [whole, free] at found
    cases found
  · rcases site.sound.dir_above isDir front with root | ⟨mode, isDir⟩
    · exact absurd (List.append_eq_nil_iff.mp root).2 long
    · cases found.symm.trans isDir

theorem Site.makeParent_vacant (site : Site names base d) (named : ∀ c' ∈ init ++ [c], IsName c')
    (passable : d.Passable base init) (absent : d.sight? (base ++ (init ++ [c])) = none) :
    ∃ d', (Act.makeDirAll (Path.dir (Path.ofComponents (names ++ (init ++ [c])))) 0o755).run d =
        (.ok (), d') ∧ Opened base init d d' ∧
      Vacant (Path.ofComponents (names ++ (init ++ [c]))) (base ++ (init ++ [c])) d' := by
  have before : ∀ c' ∈ init, IsName c' := fun c' member => named c' (List.mem_append_left _ member)
  have parent : Path.dir (Path.ofComponents (names ++ (init ++ [c]))) = Path.ofComponents (names ++ init) := by
    rw [← List.append_assoc, Path.dir_ofComponents
      (site.components_append fun c' member => (before c' member).1) (named c (by simp)).1]
  obtain ⟨d', made, opened⟩ := site.makeDirAll_opens before passable 0o755
  refine ⟨d', parent ▸ made, opened,
    (site.mono opened.sound opened.grown).vacant named opened.isDir ?_⟩
  rw [opened.others, absent]
  intro l front same
  have short := front.length_le
  rw [← List.append_cancel_left same, List.length_append, List.length_singleton] at short
  omega

end Disk

namespace Unpack

open Disk (Opened Placed Passable)

variable {d : Disk} {base : Place} {names init : List String} {c : String}

theorem place_ok (site : Site names base d) (named : ∀ c' ∈ init ++ [c], IsName c')
    (passable : d.Passable base init) (absent : d.sight? (base ++ (init ++ [c])) = none)
    (content : Archive.Bytes) (mode : Nat) :
    ∃ d', (place (Path.ofComponents (names ++ (init ++ [c]))) content mode).run d = (.ok (), d') ∧
      Placed base (init ++ [c]) (.file content (Disk.masked (if mode = 0 then 0o644 else mode))) d d' := by
  obtain ⟨d', made, opened, vacant⟩ := site.makeParent_vacant named passable absent
  refine ⟨d'.newFile (base ++ (init ++ [c])) ⟨content.toArray⟩
    (Disk.masked (if mode = 0 then 0o644 else mode)), ?_, ?_⟩
  · rw [place, Act.run_bind, made]
    dsimp only
    rw [Act.run_during, Act.putFile, Act.run_change, vacant.write]
    rfl
  · refine opened.placed (vacant.sound.newFile vacant.free vacant.inDir _ _)
      (Disk.extends_insert vacant.free) fun q => ?_
    rw [Disk.sight?_newFile vacant.sound vacant.notRoot, Archive.toList_toArray]

theorem symlink_ok (site : Site names base d) (named : ∀ c' ∈ init ++ [c], IsName c')
    (passable : d.Passable base init) (absent : d.sight? (base ++ (init ++ [c])) = none)
    {target : String} (given : target ≠ "") :
    ∃ d', (do
        Act.makeDirAll (Path.dir (Path.ofComponents (names ++ (init ++ [c])))) 0o755
        Act.symlink target (Path.ofComponents (names ++ (init ++ [c])))).run d = (.ok (), d') ∧
      Placed base (init ++ [c]) (.link target) d d' := by
  obtain ⟨d', made, opened, vacant⟩ := site.makeParent_vacant named passable absent
  refine ⟨{ d' with tree := d'.tree.insert (base ++ (init ++ [c])) (.link target) }, ?_, ?_⟩
  · rw [Act.run_bind, made]
    dsimp only
    rw [Act.symlink, Act.run_change, vacant.makeLink given]
  · exact opened.placed (vacant.sound.insert vacant.free vacant.inDir (by simp))
      (Disk.extends_insert vacant.free) fun q => Disk.sight?_insert vacant.notRoot _ q

/-! ### Names in an archive -/

theorem toList_ofComponents_of_ne (inner : names ≠ []) :
    (Path.ofComponents names).toList = (names.map String.toList).flatMap ('/' :: ·) := by
  obtain ⟨init, c, rfl⟩ := (List.eq_nil_or_concat' names).resolve_left inner
  rw [Act.toList_ofComponents_concat]
  simp

theorem startsWith_ofComponents {more : List String} (inner : names ≠ []) (further : more ≠ []) :
    startsWith (Path.ofComponents (names ++ more)) (Path.ofComponents names ++ "/") = true := by
  obtain ⟨c, rest, rfl⟩ := List.exists_cons_of_ne_nil further
  have whole : (Path.ofComponents (names ++ c :: rest)).toList =
      (Path.ofComponents names ++ "/").toList ++ (c.toList ++ (rest.map String.toList).flatMap ('/' :: ·)) := by
    rw [toList_ofComponents_of_ne (by simp), String.toList_append, toList_ofComponents_of_ne inner]
    simp
  rw [startsWith, Text.chars_eq, Text.chars_eq, whole, Text.dropPrefix?_append]
  rfl

theorem within_relative {root entry : String} (rooted : Path.isAbs root = true) (inner : namesOf root ≠ [])
    (further : names ≠ []) (components : ∀ c ∈ names, IsComponent c.toList)
    (written : entry = relative names ∨ entry = relative names ++ "/") :
    within root entry = .ok (Path.ofComponents (namesOf root ++ names)) := by
  have cleaned : Path.clean root = Path.ofComponents (namesOf root) := Path.clean_of_isAbs rooted
  have joined : Path.join [Path.ofComponents (namesOf root), entry] =
      Path.ofComponents (namesOf root ++ names) := by
    have pieces : (Path.pieces entry.toList).foldl (Path.enter true)
        ((namesOf root).map String.toList).reverse =
          (names.map String.toList).reverse ++ ((namesOf root).map String.toList).reverse := by
      rcases written with rfl | rfl
      · exact Path.foldl_enter_relative further components
      · have split : Path.pieces (relative names ++ "/").toList =
            Path.pieces (relative names).toList ++ [[]] := by
          rw [String.toList_append]
          exact Text.splitAt_append_cons '/' _ []
        rw [split, List.foldl_append, Path.foldl_enter_relative further components, List.foldl_cons,
          Path.enter_stays (Or.inl rfl), List.foldl_nil]
    rw [Path.join_ofComponents_eq (Disk.namesOf_components rooted), pieces]
    simp
  have below := startsWith_ofComponents inner further
  simp only [within, cleaned, joined, below]
  simp

end Unpack

namespace Bottle

variable {d origin : Disk} {name version cellar : String} {names : List String} {e : Entry}
  {base place : Place}

theorem join_parent (named : ∀ c ∈ name :: version :: names, IsComponent c.toList) :
    Path.join [Path.join [name, version], if names.isEmpty then "." else "/".intercalate names] =
      relative (name :: version :: names) := by
  have before : ∀ c ∈ [name, version], IsComponent c.toList := by simp_all
  have nonempty := Path.relative_ne_empty (List.cons_ne_nil name [version]) before
  rw [Path.join_components (List.cons_ne_nil name [version]) before]
  cases names with
  | nil =>
    rw [List.isEmpty_nil, if_pos rfl, Path.join_dot nonempty, Path.join_cons_of_ne nonempty, List.filter_nil,
      String.intercalate_singleton]
    exact Path.clean_relative (by simp) before
  | cons c rest =>
    obtain ⟨isAbs, steps⟩ := Path.join_relative (relative [name, version]) (List.cons_ne_nil c rest)
      fun c' member => named c' (List.mem_cons_of_mem name (List.mem_cons_of_mem version member))
    rw [Path.stepsOf_relative (by simp) before] at steps
    rw [Path.isAbs_relative (by simp) before] at isAbs
    rw [List.isEmpty_cons, if_neg (by decide), ← Path.clean_join ⟨_, List.mem_cons_self, nonempty⟩,
      ← Path.clean_relative (by simp) named, Path.clean_eq_clean_iff,
      Path.isAbs_relative (List.cons_ne_nil name _) named, Path.stepsOf_relative (List.cons_ne_nil name _) named]
    exact ⟨isAbs, steps⟩

theorem placeEntry_ok (rooted : Path.isAbs cellar = true) (inner : namesOf cellar ≠ [])
    (site : Site (namesOf cellar) base d) (named : ∀ c ∈ name :: version :: names, IsName c)
    (given : ∀ target, e = .link target → target ≠ "")
    (passable : d.Passable base (name :: version :: names).dropLast)
    (absent : d.sight? (base ++ name :: version :: names) = none) :
    ∃ d', (Unpack.placeEntry cellar (entryOf origin (Path.join [name, version]) names e)).run d = (.ok (), d') ∧
      Disk.Placed base (name :: version :: names) (origin.sightOf e).poured d d' := by
  have components : ∀ c ∈ name :: version :: names, IsComponent c.toList := fun c member => (named c member).1
  have leads : ∀ entry, entry = relative (name :: version :: names) ∨
      entry = relative (name :: version :: names) ++ "/" →
      Unpack.within cellar entry = .ok (Path.ofComponents (namesOf cellar ++ name :: version :: names)) :=
    fun entry => Unpack.within_relative rooted inner (by simp) components
  have joined := join_parent components
  obtain ⟨init, c, split⟩ := (List.eq_nil_or_concat' (name :: version :: names)).resolve_left (by simp)
  rw [split] at leads joined named passable absent ⊢
  rw [List.dropLast_concat] at passable
  rw [Unpack.placeEntry, Act.run_bind, Act.run_ofExcept]
  cases e with
  | dir mode =>
    obtain ⟨d', ran, opened⟩ := site.makeDirAll_opens named (passable.concat absent) 0o755
    simp only [entryOf, joined, leads _ (Or.inr rfl)]
    exact ⟨d', ran, opened.placed_dir⟩
  | link target =>
    simp only [entryOf, joined, leads _ (Or.inl rfl)]
    exact Unpack.symlink_ok site named passable absent (given target rfl)
  | file body =>
    simp only [entryOf, Disk.bodyOf?, Disk.sightOf]
    cases origin.bodies.get? body with
    | none =>
      simp only [joined, leads _ (Or.inl rfl)]
      exact Unpack.place_ok site named passable absent [] 0
    | some b =>
      simp only [joined, leads _ (Or.inl rfl), Nat.mod_mod]
      exact Unpack.place_ok site named passable absent b.content.toList (b.mode % 512)

/-! ### A whole keg -/

/-- A cellar that holds the first things of a keg and nothing else. -/
structure Filled (origin : Disk) (cellar : String) (base : Place) (name version : String)
    (done : List (List String × Entry)) (d : Disk) : Prop where
  site : Site (namesOf cellar) base d
  shown : ∀ names e, (names, e) ∈ done →
    d.sight? (base ++ name :: version :: names) = some (origin.sightOf e).poured
  only : ∀ names s, d.sight? (base ++ names) = some s → names = [] ∨ names = [name] ∧ s = .dir ∨
    ∃ names' e, names = name :: version :: names' ∧ (names', e) ∈ done

/-- A thing is the keg itself, or the directory that it is in is among others. -/
def Held (things : List (List String × Entry)) (names : List String) : Prop :=
  names = [] ∨ ∃ init c mode, names = init ++ [c] ∧ (init, .dir mode) ∈ things

/-- Everything comes once, after the directory that it is in. -/
def Ordered (things : List (List String × Entry)) : Prop :=
  ∀ before names e after, things = before ++ (names, e) :: after →
    (∀ e', (names, e') ∉ before) ∧ Held before names

theorem eq_or_prefix_dropLast {l whole : List String} (front : l <+: whole) :
    l = whole ∨ l <+: whole.dropLast := by
  rcases List.eq_nil_or_concat' whole with rfl | ⟨init, c, rfl⟩
  · exact Or.inl (List.prefix_nil.mp front)
  · rw [List.dropLast_concat]
    exact List.prefix_concat_iff.mp front

namespace Filled

variable {done todo : List (List String × Entry)} {d' : Disk}

variable (filled : Filled origin cellar base name version done d)

include filled

theorem absent (new : ∀ e, (names, e) ∉ done) :
    d.sight? (base ++ name :: version :: names) = none := by
  cases shown : d.sight? (base ++ name :: version :: names) with
  | none => rfl
  | some s =>
    rcases filled.only _ s shown with nothing | ⟨rack, -⟩ | ⟨names', e, same, member⟩
    · simp at nothing
    · simp at rack
    · obtain ⟨-, -, rfl⟩ : name = name ∧ version = version ∧ names = names' := by simpa using same
      exact absurd member (new e)

theorem above (held : Held done names)
    {l : List String} (front : l <+: (name :: version :: names).dropLast) :
    l = [] ∨ l = [name] ∨ HasDir d.tree (base ++ l) := by
  rcases held with rfl | ⟨init, c, mode, rfl, member⟩
  · rcases List.prefix_concat_iff.mp (show l <+: [] ++ [name] from front) with whole | none
    · exact Or.inr (Or.inl whole)
    · exact Or.inl (List.prefix_nil.mp none)
  · have isDir := Disk.sight?_eq_dir_iff.mp (filled.shown init _ member)
    have parent : (name :: version :: (init ++ [c])).dropLast = name :: version :: init := by
      rw [← List.cons_append, ← List.cons_append, List.dropLast_concat]
    exact Or.inr (Or.inr (filled.site.sound.dir_above isDir (parent ▸ front)))

theorem passable (held : Held done names) :
    d.Passable base (name :: version :: names).dropLast := by
  intro l s long front shown
  rcases filled.above held front with none | rfl | isDir
  · exact absurd none long
  · rcases filled.only _ s shown with nothing | ⟨-, isDir⟩ | ⟨names', e, same, -⟩
    · cases nothing
    · exact isDir
    · simp at same
  · exact Option.some.inj (shown.symm.trans (Disk.sight?_eq_dir_iff.mpr isDir))

theorem kept {s s' : Sight} {q : Place} (held : Held done names) (new : ∀ e, (names, e) ∉ done)
    (placed : Disk.Placed base (name :: version :: names) s d d') (shown : d.sight? q = some s') :
    d'.sight? q = some s' := by
  by_cases onWay : ∃ l, l <+: name :: version :: names ∧ q = base ++ l
  · obtain ⟨l, front, rfl⟩ := onWay
    rcases eq_or_prefix_dropLast front with rfl | under
    · rw [filled.absent new] at shown
      cases shown
    · have isDir : s' = .dir := by
        by_cases none : l = []
        · rw [none, List.append_nil] at shown
          exact Option.some.inj (shown.symm.trans (Disk.sight?_eq_dir_iff.mpr filled.site.isDir))
        · exact filled.passable held l s' none under shown
      rw [isDir, Disk.sight?_eq_dir_iff]
      exact placed.sound.dir_above placed.inDir under
  · rw [placed.others q fun l front same => onWay ⟨l, front, same⟩, shown]

theorem step (rooted : Path.isAbs cellar = true)
    (inner : namesOf cellar ≠ []) (named : ∀ c ∈ name :: version :: names, IsName c)
    (given : ∀ target, e = .link target → target ≠ "") (new : ∀ e', (names, e') ∉ done)
    (held : Held done names) :
    ∃ d', (Unpack.placeEntry cellar (entryOf origin (Path.join [name, version]) names e)).run d =
      (.ok (), d') ∧ Filled origin cellar base name version (done ++ [(names, e)]) d' := by
  obtain ⟨d', ran, placed⟩ := placeEntry_ok rooted inner filled.site named given
    (filled.passable held) (filled.absent new)
  refine ⟨d', ran, filled.site.mono placed.sound placed.grown, ?_, ?_⟩
  · intro names' e' member
    rcases List.mem_append.mp member with old | last
    · exact filled.kept held new placed (filled.shown names' e' old)
    · obtain ⟨rfl, rfl⟩ : names' = names ∧ e' = e := by simpa using last
      exact placed.shown
  · intro l s shown
    have old : d.sight? (base ++ l) = some s → l = [] ∨ l = [name] ∧ s = .dir ∨
        ∃ names' e', l = name :: version :: names' ∧ (names', e') ∈ done ++ [(names, e)] := by
      intro before
      rcases filled.only l s before with none | rack | ⟨names', e', same, member⟩
      · exact Or.inl none
      · exact Or.inr (Or.inl rack)
      · exact Or.inr (Or.inr ⟨names', e', same, List.mem_append_left _ member⟩)
    by_cases front : l <+: name :: version :: names
    · rcases eq_or_prefix_dropLast front with rfl | under
      · exact Or.inr (Or.inr ⟨names, e, rfl, by simp⟩)
      · have isDir : s = .dir := Option.some.inj (shown.symm.trans
          (Disk.sight?_eq_dir_iff.mpr (placed.sound.dir_above placed.inDir under)))
        rcases filled.above held under with none | rack | there
        · exact Or.inl none
        · exact Or.inr (Or.inl ⟨rack, isDir⟩)
        · exact old (isDir ▸ Disk.sight?_eq_dir_iff.mpr there)
    · refine old ((placed.others _ fun l' front' same => front ?_).symm.trans shown)
      rwa [List.append_cancel_left same]

theorem run (rooted : Path.isAbs cellar = true)
    (inner : namesOf cellar ≠ []) (ordered : Ordered (done ++ todo))
    (named : ∀ names e, (names, e) ∈ todo → ∀ c ∈ name :: version :: names, IsName c)
    (given : ∀ names target, (names, .link target) ∈ todo → target ≠ "") :
    ∃ d', (Unpack.placeItems cellar (todo.map fun (names, e) =>
        .entry (entryOf origin (Path.join [name, version]) names e))).run d = (.ok (), d') ∧
      Filled origin cellar base name version (done ++ todo) d' := by
  induction todo generalizing done d with
  | nil => exact ⟨d, rfl, by rwa [List.append_nil]⟩
  | cons thing todo ih =>
    obtain ⟨names, e⟩ := thing
    obtain ⟨new, held⟩ := ordered done names e todo rfl
    obtain ⟨d₁, placed, filled₁⟩ := filled.step (e := e) rooted inner (named names e (by simp))
      (fun target same => given names target (by simp [same])) new held
    have split : done ++ (names, e) :: todo = done ++ [(names, e)] ++ todo := by simp
    rw [split] at ordered ⊢
    obtain ⟨d₂, ran, filled₂⟩ := ih filled₁ ordered
      (fun names' e' member => named names' e' (List.mem_cons_of_mem _ member))
      (fun names' target member => given names' target (List.mem_cons_of_mem _ member))
    refine ⟨d₂, ?_, filled₂⟩
    rw [List.map_cons, Unpack.placeItems_cons]
    exact (Act.run_bind_of_ok placed).trans ran

end Filled

/-! ### The order of what is packed -/

theorem below_ascending (d : Disk) (place : Place) : (d.below place).Pairwise fun a b => a.1 < b.1 := by
  rw [Disk.below, List.pairwise_filterMap]
  refine d.tree.sorted.imp ?_
  rintro ⟨k, e⟩ ⟨k', e'⟩ less ⟨l, f⟩ image ⟨l', f'⟩ image'
  simp only [Option.ite_none_right_eq_some, Bool.and_eq_true, Option.some.injEq, Prod.mk.injEq,
    Disk.isBelow, List.isPrefixOf_iff_prefix] at image image'
  obtain ⟨⟨⟨more, rfl⟩, -⟩, rfl, rfl⟩ := image
  obtain ⟨⟨⟨more', rfl⟩, -⟩, rfl, rfl⟩ := image'
  rw [List.drop_left, List.drop_left]
  by_contra ascending
  rcases Decidable.em (more' < more) with descending | same
  · exact List.lt_irrefl _ (List.lt_trans less (List.append_left_lt descending))
  · obtain rfl := Key.eq_of_not_lt ascending same
    exact List.lt_irrefl _ less

theorem ordered_below (sound : d.Sound) (found : d.entry? place = some e) :
    Ordered (([], e) :: d.below place) := by
  intro before names e' after split
  cases before with
  | nil =>
    obtain ⟨same, -⟩ := List.cons.inj split
    obtain ⟨rfl, -⟩ := Prod.mk.inj same
    exact ⟨by simp, Or.inl rfl⟩
  | cons first before =>
    obtain ⟨rfl, rest⟩ : ([], e) = first ∧ d.below place = before ++ (names, e') :: after := by
      simpa using split
    have ascending := below_ascending d place
    rw [rest] at ascending
    obtain ⟨-, behind, across⟩ := List.pairwise_append.mp ascending
    obtain ⟨some, there⟩ := (Disk.mem_below_iff d place names e').mp (by simp [rest])
    obtain ⟨init, c, rfl⟩ := (List.eq_nil_or_concat' names).resolve_left some
    refine ⟨?_, Or.inr ⟨init, c, ?_⟩⟩
    · intro e'' member
      rcases List.mem_cons.mp member with keg | earlier
      · simp at keg
      · exact List.lt_irrefl _ (across _ earlier (init ++ [c], e') List.mem_cons_self)
    · rw [← List.append_assoc] at there
      have inDir := sound.inDir _ c e' there
      by_cases top : init = []
      · subst top
        rw [List.append_nil] at inDir
        obtain ⟨mode, isDir⟩ := Disk.entry?_of_hasDir inDir
        exact ⟨mode, rfl, by simp [Option.some.inj (found.symm.trans isDir)]⟩
      · obtain ⟨mode, isDir⟩ := inDir.resolve_left (by simp [top])
        have member := (Disk.mem_below_iff d place init (.dir mode)).mpr ⟨top, isDir⟩
        rw [rest] at member
        have less : init ++ [] < init ++ [c] := List.append_left_lt (List.nil_lt_cons c [])
        rw [List.append_nil] at less
        refine ⟨mode, rfl, List.mem_cons_of_mem _ ?_⟩
        rcases List.mem_append.mp member with earlier | later
        · exact earlier
        · exfalso
          rcases List.mem_cons.mp later with same | later
          · simp at same
          · exact List.lt_irrefl _ (List.lt_trans less ((List.pairwise_cons.mp behind).1 _ later))

/-! ### Packing -/

def bytesOf (es : List Tar.Entry) : ByteArray := ⟨(Gzip.encode (Tar.encode es)).toArray⟩

/-- An archive of some entries gives them back. -/
def Returned (es : List Tar.Entry) : Prop := Tar.decode ⟨Tar.encode es, none⟩ = es.map .entry

def begun (out : String) (d : Disk) : Disk := ((Act.putFile out .empty 0o666).run d).2

section Packing

variable {keg out sum : String} {d' : Disk}

theorem pack_eq_ok (packed : (pack keg name version out).run d = (.ok sum, d')) :
    d.write out .empty 0o666 = .ok (begun out d) ∧
      ∃ es, entries (begun out d) keg (Path.join [name, version]) = .ok es ∧
        sum = Sha256.hex (bytesOf es) ∧ d'.read out = .ok (bytesOf es) := by
  obtain ⟨_, d₁, made, packed⟩ := Act.run_bind_eq_ok packed
  have start : begun out d = d₁ := by rw [begun, made]
  rw [start]
  refine ⟨Disk.write_of_putFile made, ?_⟩
  rw [Act.run_bind_of_ok (Act.run_get d₁)] at packed
  cases listed : entries d₁ keg (Path.join [name, version]) with
  | error f =>
    rw [listed] at packed
    obtain ⟨_, d₂, -, failed⟩ := Act.run_bind_eq_ok packed
    cases failed
  | ok es =>
    rw [listed] at packed
    obtain ⟨_, d₂, put, returned⟩ := Act.run_bind_eq_ok packed
    obtain ⟨same, same'⟩ := Prod.mk.inj returned
    refine ⟨es, rfl, (Except.ok.inj same).symm, ?_⟩
    rw [← same']
    exact Disk.read_of_write (Disk.write_of_putFile put)

theorem pack_ok {es : List Tar.Entry} (made : d.write out .empty 0o666 = .ok d')
    (listed : entries d' keg (Path.join [name, version]) = .ok es) {d'' : Disk}
    (written : d'.write out (bytesOf es) 0o666 = .ok d'') :
    (pack keg name version out).run d = (.ok (Sha256.hex (bytesOf es)), d'') := by
  have put : ∀ {content : ByteArray} {d d' : Disk}, d.write out content 0o666 = .ok d' →
      (Act.putFile out content 0o666).run d = (.ok (), d') := by
    intro content d d' written
    rw [Act.putFile, Act.run_change, written]
  rw [pack, Act.run_bind_of_ok (put made), Act.run_bind_of_ok (Act.run_get d')]
  dsimp only
  rw [listed]
  exact Act.run_bind_of_ok (put written)

/-- A path leads neither to something at a place or below it nor to a file that is also there. -/
def Apart (d : Disk) (path : String) (place : Place) : Prop :=
  ∀ p names, d.locate true path = .ok p → p ≠ place ++ names ∧
    ∀ body, d.tree.get? p = some (.file body) → d.tree.get? (place ++ names) ≠ some (.file body)

theorem begun_of_apart (proper : d.Proper) (made : d.write out .empty 0o666 = .ok (begun out d))
    (found : d.find false keg = .ok (place, e)) (apart : Apart d out place) :
    (begun out d).find false keg = .ok (place, e) ∧
      ∀ names, (begun out d).sight? (place ++ names) = d.sight? (place ++ names) := by
  obtain ⟨p, located, outcome⟩ := Disk.write_eq_ok made
  rcases outcome with ⟨body, mode, present, same⟩ | ⟨absent, same⟩
  · rw [same]
    refine ⟨found, fun names => Disk.sight?_setBody _ ?_⟩
    exact (apart p names located).2 body (Disk.get?_of_entry?_file present)
  · have notRoot : p ≠ [] := by
      rintro rfl
      simp [Disk.entry?] at absent
    rw [Disk.entry?, if_neg notRoot] at absent
    rw [same]
    refine ⟨Disk.find_extends (Disk.extends_insert absent) rfl found, fun names => ?_⟩
    rw [Disk.sight?_newFile proper.sound notRoot, if_neg (Ne.symm (apart p names located).1)]

end Packing

/-! ### Pouring -/

/-- The path of a cellar that is there or can be made, and then holds nothing. -/
structure EmptyCellar (cellar : String) (base : Place) (d : Disk) : Prop where
  rooted : Path.isAbs cellar = true
  inner : Path.clean cellar ≠ "/"
  opens : ∃ d', (Act.makeDirAll cellar 0o755).run d = (.ok (), d') ∧
    (∃ mode, d'.find true (Path.clean cellar) = .ok (base, .dir mode)) ∧
    ∀ names, names ≠ [] → d'.tree.get? (base ++ names) = none

theorem EmptyCellar.of_dir {mode : Nat} (rooted : Path.isAbs cellar = true)
    (inner : Path.clean cellar ≠ "/") (found : d.find true cellar = .ok (base, .dir mode))
    (leads : d.find true (Path.clean cellar) = .ok (base, .dir mode))
    (nothing : ∀ names, names ≠ [] → d.tree.get? (base ++ names) = none) :
    EmptyCellar cellar base d :=
  ⟨rooted, inner, d, Act.run_makeDirAll_of_dir 0o755 found, ⟨mode, leads⟩, nothing⟩

theorem EmptyCellar.namesOf_ne_nil (empty : EmptyCellar cellar base d) : namesOf cellar ≠ [] := by
  intro none
  apply empty.inner
  rw [Path.clean_of_isAbs empty.rooted, ← namesOf, none]
  rfl

theorem filled_nothing (rooted : Path.isAbs cellar = true) (sound : d.Sound) {mode : Nat}
    (leads : d.find true (Path.clean cellar) = .ok (base, .dir mode))
    (nothing : ∀ names, names ≠ [] → d.tree.get? (base ++ names) = none) :
    Filled origin cellar base name version [] d where
  site := by
    have components := Disk.namesOf_components rooted
    rw [Path.clean_of_isAbs rooted, ← namesOf] at leads
    obtain ⟨there, isDir⟩ := Disk.find_ofComponents_eq_ok components leads
    exact ⟨sound, components, there, Disk.hasDir_of_entry? isDir⟩
  shown _ _ member := by cases member
  only names s shown := by
    by_cases none : names = []
    · exact Or.inl none
    · have absent := Disk.sight?_eq_none_iff.mpr ⟨by simp [none], nothing names none⟩
      cases absent.symm.trans shown

theorem extract_ok (proper : origin.Proper) (found : origin.entry? place = some e)
    (named : ∀ c ∈ [name, version], IsName c) (sound : d.Sound) (empty : EmptyCellar cellar base d)
    {s : Archive.Stream}
    (items : Tar.decode s = (([], e) :: origin.below place).map fun (names, e) =>
      .entry (entryOf origin (Path.join [name, version]) names e)) :
    ∃ d', (Unpack.extract s cellar).run d = (.ok (), d') ∧
      Filled origin cellar base name version (([], e) :: origin.below place) d' := by
  obtain ⟨d₁, made, ⟨mode, leads⟩, nothing⟩ := empty.opens
  have sound₁ : d₁.Sound := by
    have kept := (Disk.makeDirs_roomier (cellar.length + 2) cellar 0o755 _).sound sound
    rwa [← Act.makeDirAll, made] at kept
  have start : Filled origin cellar base name version [] d₁ := filled_nothing empty.rooted sound₁ leads nothing
  have stored : ∀ names e', (names, e') ∈ ([], e) :: origin.below place →
      origin.tree.get? (place ++ names) = some e' ∨ names = [] ∧ ∃ mode, e' = .dir mode := by
    intro names e' member
    rcases List.mem_cons.mp member with keg | inside
    · obtain ⟨rfl, rfl⟩ := Prod.mk.inj keg
      rw [Disk.entry?] at found
      split at found
      · exact Or.inr ⟨rfl, 0o755, (Option.some.inj found).symm⟩
      · exact Or.inl (by rwa [List.append_nil])
    · exact Or.inl ((Disk.mem_below_iff ..).mp inside).2
  have allNamed : ∀ names e', (names, e') ∈ ([], e) :: origin.below place →
      ∀ c ∈ name :: version :: names, IsName c := by
    intro names e' member c inside
    rcases List.mem_append.mp (show c ∈ [name, version] ++ names from inside) with own | further
    · exact named c own
    · rcases stored names e' member with there | ⟨rfl, -⟩
      · exact proper.named _ e' there c (List.mem_append_right place further)
      · cases further
  have given : ∀ names target, (names, .link target) ∈ ([], e) :: origin.below place → target ≠ "" := by
    intro names target member
    rcases stored names _ member with there | ⟨-, mode, isDir⟩
    · exact proper.targets _ target there
    · cases isDir
  obtain ⟨d', ran, filled⟩ := start.run empty.rooted empty.namesOf_ne_nil
    (ordered_below proper.sound found) allNamed given
  refine ⟨d', ?_, filled⟩
  rw [Unpack.extract, Act.run_bind_of_ok made, items]
  exact ran

theorem Filled.sights
    (filled : Filled origin cellar base name version (([], e) :: origin.below place) d)
    (found : origin.entry? place = some e) (names : List String) :
    d.sight? (base ++ name :: version :: names) =
      (origin.sight? (place ++ names)).map Disk.Sight.poured := by
  have view : origin.sight? (place ++ names) = (origin.entry? (place ++ names)).map origin.sightOf := rfl
  cases seen : origin.entry? (place ++ names) with
  | some e' =>
    rw [view, seen]
    refine filled.shown names e' ?_
    by_cases top : names = []
    · subst top
      rw [List.append_nil, found] at seen
      simp [Option.some.inj seen]
    · refine List.mem_cons_of_mem _ ((Disk.mem_below_iff ..).mpr ⟨top, ?_⟩)
      simpa [Disk.entry?, top] using seen
  | none =>
    rw [view, seen]
    refine filled.absent fun e' member => ?_
    rcases List.mem_cons.mp member with keg | inside
    · obtain ⟨rfl, rfl⟩ := Prod.mk.inj keg
      rw [List.append_nil, found] at seen
      cases seen
    · obtain ⟨further, there⟩ := (Disk.mem_below_iff ..).mp inside
      simp [Disk.entry?, further, there] at seen

theorem Filled.find {done : List (List String × Entry)}
    (filled : Filled origin cellar base name version done d) (rooted : Path.isAbs cellar = true)
    (named : ∀ c ∈ [name, version], IsName c) (member : ([], e) ∈ done) :
    ∃ e', d.find false (Path.join [cellar, name, version]) = .ok (base ++ [name, version], e') := by
  have joined : Path.join [cellar, name, version] = Path.ofComponents (namesOf cellar ++ [name, version]) := by
    rw [Path.join_eq_written cellar (by simp) fun c inside => (named c inside).1, rooted, ← String.toList_inj,
      Path.toList_written, Path.toList_ofComponents]
    rfl
  have clear : Clear d.tree false base [name, version] := by
    intro before after target split long found
    refine ⟨?_, rfl⟩
    by_contra further
    have front : before = [name] := by
      rcases eq_or_prefix_dropLast (split ▸ List.prefix_append before after) with whole | front
      · rw [whole] at split
        exact absurd (List.append_right_eq_self.mp split.symm) further
      · exact (List.prefix_concat_iff.mp (show before <+: [] ++ [name] from front)).resolve_right
          fun none => long (List.prefix_nil.mp none)
    have seen := Disk.sight?_of_get? (by simp [long]) found
    rcases filled.only before _ seen with none | ⟨-, isDir⟩ | ⟨names', e', same, -⟩
    · exact long none
    · cases isDir
    · simp [front] at same
  obtain ⟨e', found⟩ : ∃ e', d.tree.get? (base ++ [name, version]) = some e' := by
    rw [← Option.isSome_iff_exists, Option.isSome_iff_ne_none]
    intro absent
    have shown := filled.shown [] e member
    rw [Disk.sight?_eq_none_iff.mpr ⟨by simp, absent⟩] at shown
    cases shown
  exact ⟨e', joined ▸ (filled.site.find_eq_ok_iff (by simp) named clear e').mpr ⟨rfl, found⟩⟩

section Pouring

variable {keg out path sum : String} {d' later : Disk}

theorem pour_of_mismatch {bytes : ByteArray} (read : d.read path = .ok bytes)
    (differ : Sha256.hex bytes ≠ sum) :
    (pour path sum cellar).run d = (.error (.checksumMismatch path sum (Sha256.hex bytes)), d) := by
  rw [pour, Act.run_bind, Act.run_contentOf, read]
  dsimp only
  rw [if_pos differ]
  rfl

theorem pour_of_items {bytes : ByteArray} {s : Archive.Stream} (read : d.read path = .ok bytes)
    (decoded : Gzip.decode bytes.toList = .ok s) (extracted : (Unpack.extract s cellar).run d = (.ok (), d')) :
    (pour path (Sha256.hex bytes) cellar).run d = (.ok (), d') := by
  have unzipped : Unpack.gunzip path bytes.toList = .ok s := by
    rw [Unpack.gunzip, decoded]
    rfl
  rw [pour, Act.run_bind, Act.run_contentOf, read]
  dsimp only
  rw [if_neg (by simp), Act.run_bind, Act.run_ofExcept, unzipped]
  dsimp only
  rw [Act.run_during, extracted]
  rfl

/-- A keg that was packed is poured into an empty cellar as it was when its bottle was begun, and with
another checksum nothing is. -/
theorem pour_undoes_pack (proper : d.Proper) (named : ∀ c ∈ [name, version], IsName c)
    (packed : (pack keg name version out).run d = (.ok sum, d'))
    (returned : ∀ es, entries (begun out d) keg (Path.join [name, version]) = .ok es → Returned es)
    (sound : later.Sound) (carried : later.read path = d'.read out)
    (empty : EmptyCellar cellar base later) :
    (∃ place e poured, (begun out d).find false keg = .ok (place, e) ∧
      (∀ place' e', d.find false keg = .ok (place', e') → Apart d out place' →
        place' = place ∧ ∀ names, (begun out d).sight? (place ++ names) = d.sight? (place ++ names)) ∧
      (pour path sum cellar).run later = (.ok (), poured) ∧
      (∃ e', poured.find false (Path.join [cellar, name, version]) = .ok (base ++ [name, version], e')) ∧
      (∀ names, poured.sight? (base ++ name :: version :: names) =
        ((begun out d).sight? (place ++ names)).map Sight.poured) ∧
      ∀ names, (poured.sight? (base ++ names)).isSome →
        names <+: [name, version] ∨ [name, version] <+: names) ∧
    ∀ other, other ≠ sum → ∃ f, (pour path other cellar).run later = (.error f, later) := by
  obtain ⟨made, es, listed, rfl, written⟩ := pack_eq_ok packed
  have properBegun := proper.write made
  have read : later.read path = .ok (bytesOf es) := carried.trans written
  have items := returned es listed
  refine ⟨?_, fun other differ => ⟨_, pour_of_mismatch read (Ne.symm differ)⟩⟩
  rw [entries] at listed
  rcases found : (begun out d).find false keg with reason | ⟨place, e⟩
  · rw [found] at listed
    cases listed
  · rw [found] at listed
    obtain rfl := Except.ok.inj listed
    have present := ((Disk.find_eq_ok_iff ..).mp found).2
    obtain ⟨poured, ran, filled⟩ := extract_ok properBegun present named sound empty
      (items.trans (by rw [List.map_cons, List.map_cons, List.map_map]; rfl))
    refine ⟨place, e, poured, rfl, ?_, pour_of_items read ?_ ran, ?_, filled.sights present, ?_⟩
    · intro place' e' before apart
      obtain ⟨still, same⟩ := begun_of_apart proper made before apart
      obtain ⟨rfl, -⟩ := Prod.mk.inj (Except.ok.inj (still.symm.trans found))
      exact ⟨rfl, same⟩
    · rw [bytesOf, Archive.toList_toArray, Gzip.decode_encode]
    · exact filled.find empty.rooted named List.mem_cons_self
    · intro names shown
      obtain ⟨s, seen⟩ := Option.isSome_iff_exists.mp shown
      rcases filled.only names s seen with rfl | ⟨rfl, -⟩ | ⟨names', e', rfl, -⟩ <;> simp

/-! ### A small keg -/

def cupboard : Disk where
  tree := .ofList [(["cellar"], .dir 0o755), (["keg"], .dir 0o755), (["keg", "bin"], .dir 0o700),
    (["keg", "bin", "hello"], .file 0), (["keg", "hello"], .link "bin/hello")]
  bodies := .ofList [(0, ⟨⟨#[104, 105]⟩, 0o775⟩)]
  nextBody := 1

def parcel : List Tar.Entry :=
  [{ name := "hello/1.0/", kind := .dir, mode := 0o755 },
    { name := "hello/1.0/bin/", kind := .dir, mode := 0o700 },
    { name := "hello/1.0/bin/hello", kind := .file, mode := 0o775, content := [104, 105] },
    { name := "hello/1.0/hello", kind := .symlink, mode := 0o777, link := "bin/hello" }]

theorem cupboard_proper : cupboard.Proper := by
  have named : ∀ thing ∈ cupboard.tree.toList, ∀ c ∈ thing.1, IsName c := by decide
  have targets : ∀ thing ∈ cupboard.tree.toList, thing.2 ≠ .link "" := by decide
  refine ⟨Disk.sound_of_isSound (by decide), ?_, ?_, by decide⟩
  · exact fun p e found => named (p, e) ((Dict.get?_eq_some_iff ..).mp found)
  · rintro p target found rfl
    exact targets (p, .link "") ((Dict.get?_eq_some_iff ..).mp found) rfl

theorem parcel_returned : Returned parcel := by
  rw [Returned]
  decide +kernel

def shelf : Disk := cupboard.newFile ["out"] .empty 0o644

theorem cupboard_begun : cupboard.write "/out" .empty 0o666 = .ok shelf := by
  have site : Site [] [] cupboard := ⟨cupboard_proper.sound, by simp, by rw [Disk.walk], Or.inl rfl⟩
  have out : "/out" = Path.ofComponents ([] ++ ([] ++ ["out"])) := by decide
  have absent : cupboard.sight? ([] ++ ([] ++ ["out"])) = none :=
    Disk.sight?_eq_none_iff.mpr ⟨by simp, by decide⟩
  rw [out]
  exact (site.vacant (by decide) (Or.inl rfl) absent).write .empty 0o666

theorem shelf_proper : shelf.Proper := cupboard_proper.write cupboard_begun

theorem shelf_entries : entries shelf "/keg" (Path.join ["hello", "1.0"]) = .ok parcel := by
  have keg : "/keg" = Path.ofComponents ["keg"] := by decide
  have found : shelf.find false "/keg" = .ok (["keg"], .dir 0o755) :=
    keg ▸ shelf_proper.sound.find_top (by decide) (by decide) (by simp) false
  have below : shelf.below ["keg"] =
      [(["bin"], .dir 0o700), (["bin", "hello"], .file 0), (["hello"], .link "bin/hello")] := by decide
  have body : shelf.bodyOf? (.file 0) = some ⟨⟨#[104, 105]⟩, 0o775⟩ := rfl
  rw [entries, found]
  dsimp only
  rw [below, parcel]
  simp only [List.map_cons, List.map_nil, entryOf, body, Archive.toList_eq_data]
  refine congrArg Except.ok ?_
  decide

theorem shelf_cellar (names : List String) (further : names ≠ []) : shelf.tree.get? (["cellar"] ++ names) = none := by
  have all : shelf.tree.toList = [(["cellar"], .dir 0o755), (["keg"], .dir 0o755), (["keg", "bin"], .dir 0o700),
      (["keg", "bin", "hello"], .file 0), (["keg", "hello"], .link "bin/hello"), (["out"], .file 1)] := by
    decide
  cases found : shelf.tree.get? (["cellar"] ++ names) with
  | none => rfl
  | some e =>
    rw [Dict.get?_eq_some_iff, all] at found
    simp [further] at found

/-- The keg comes back, without a permission that is masked. -/
theorem cupboard_poured :
    ∃ sum d' poured, (pack "/keg" "hello" "1.0" "/out").run cupboard = (.ok sum, d') ∧
      (pour "/out" sum "/cellar").run d' = (.ok (), poured) ∧
      poured.sight? ["cellar", "hello", "1.0", "bin"] = some .dir ∧
      poured.sight? ["cellar", "hello", "1.0", "bin", "hello"] = some (.file [104, 105] 0o755) ∧
      poured.sight? ["cellar", "hello", "1.0", "hello"] = some (.link "bin/hello") ∧
      ∃ f, (pour "/out" "" "/cellar").run d' = (.error f, d') := by
  have out : "/out" = Path.ofComponents ["out"] := by decide
  have cellar : "/cellar" = Path.ofComponents ["cellar"] := by decide
  have keg : "/keg" = Path.ofComponents ["keg"] := by decide
  have bottle : shelf.find true "/out" = .ok (["out"], .file 1) :=
    out ▸ shelf_proper.sound.find_top (by decide) (by decide) (by simp) true
  obtain ⟨located, present⟩ := (Disk.find_eq_ok_iff ..).mp bottle
  obtain ⟨mode, written⟩ := Disk.write_over located present (bytesOf parcel) 0o666
  have proper := shelf_proper.write written
  have packed := pack_ok cupboard_begun shelf_entries written
  have start : begun "/out" cupboard = shelf := by rw [begun, Act.putFile, Act.run_change, cupboard_begun]
  have isDir : shelf.tree.get? ["cellar"] = some (.dir 0o755) := by decide
  have room : EmptyCellar "/cellar" ["cellar"] (shelf.setBody 1 ⟨bytesOf parcel, mode⟩) := by
    have found := proper.sound.find_top (c := "cellar") (by decide) isDir (by simp) true
    rw [← cellar] at found
    exact .of_dir (by decide) (by decide) found found shelf_cellar
  obtain ⟨⟨place, e, poured, found, -, ran, -, sights, -⟩, refused⟩ :=
    pour_undoes_pack cupboard_proper (by decide) packed
      (fun es listed => Except.ok.inj (shelf_entries.symm.trans (start ▸ listed)) ▸ parcel_returned)
      proper.sound rfl room
  rw [start] at found sights
  obtain ⟨rfl, -⟩ : place = ["keg"] ∧ e = .dir 0o755 := by
    have there := shelf_proper.sound.find_top (c := "keg") (e := .dir 0o755) (by decide) (by decide) (by simp) false
    rw [← keg] at there
    exact Prod.mk.inj (Except.ok.inj (found.symm.trans there))
  refine ⟨_, _, poured, packed, ran, sights ["bin"], (sights ["bin", "hello"]).trans ?_, sights ["hello"],
    refused "" (Ne.symm (Sha256.hex_ne_empty _))⟩
  have held : shelf.sight? (["keg"] ++ ["bin", "hello"]) =
      some (.file (ByteArray.toList ⟨#[104, 105]⟩) 0o775) := rfl
  rw [held, Archive.toList_eq_data]
  rfl

end Pouring

end Bottle

end Taproom
