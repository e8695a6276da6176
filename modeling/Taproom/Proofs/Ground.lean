import Taproom.Proofs.Ways

/-!
The ground below a root, where files come and go. The root is named by a path of which only the first
part need exist yet. There are no links below it, and no file has a second name, so that a path leads
where its names say and what happens to one file does not happen to another.
-/

namespace Taproom

open Path (IsComponent IsWalked)

namespace Disk

/-! ### Moving a file -/

section Moves

variable {d : Disk} {source target p : Place} {body : Nat}

theorem Sound.leaf (sound : d.Sound) (notRoot : p ≠ []) (notDir : ∀ mode, d.tree.get? p ≠ some (.dir mode))
    {l : List String} (further : l ≠ []) : d.tree.get? (p ++ l) = none := by
  cases found : d.tree.get? (p ++ l) with
  | none => rfl
  | some e =>
    rcases hasDir_above sound.inDir found further with root | ⟨mode, isDir⟩
    · exact absurd root notRoot
    · exact absurd isDir (notDir mode)

theorem get?_relocate_target {e : Entry} (found : d.tree.get? source = some e) :
    (d.relocate source target).tree.get? target = some e := by
  have distinct : (d.tree.toList.filterMap fun x =>
      if isBelow source x.1 then some (target ++ x.1.drop source.length, x.2) else none).Pairwise
        fun a b => a.1 ≠ b.1 := by
    rw [List.pairwise_filterMap]
    refine d.tree.toList_distinct.imp ?_
    rintro ⟨k, e⟩ ⟨k', e'⟩ differ
    simp only [Option.ite_none_right_eq_some, Option.some.injEq, isBelow, List.isPrefixOf_iff_prefix]
    rintro - ⟨⟨names, rfl⟩, rfl⟩ - ⟨⟨names', rfl⟩, rfl⟩ same
    simp_all
  refine Dict.get?_foldl_insert_of_mem distinct _ ?_
  rw [List.mem_filterMap]
  exact ⟨(source, e), (Dict.get?_eq_some_iff ..).mp found, by simp [isBelow]⟩

theorem get?_relocate_file (sound : d.Sound) (file : d.tree.get? source = some (.file body))
    (notRoot : source ≠ [] ∧ target ≠ []) (notDir : ∀ mode, d.tree.get? target ≠ some (.dir mode))
    (p : Place) :
    (d.relocate source target).tree.get? p =
      if p = target then some (.file body) else if p = source then none else d.tree.get? p := by
  have belowSource : ∀ l, l ≠ [] → d.tree.get? (source ++ l) = none := fun l =>
    sound.leaf notRoot.1 (by simp [file])
  split
  · rename_i here
    rw [here, get?_relocate_target file]
  · rename_i away
    have gone : ∀ e, (d.relocate source target).tree.get? p = some e →
        ¬ source <+: p ∧ d.tree.get? p = some e := by
      intro e found
      rcases get?_relocate found with ⟨rest, rfl, there⟩ | old
      · have further : rest ≠ [] := by
          rintro rfl
          exact away (List.append_nil target)
        rw [belowSource rest further] at there
        cases there
      · exact old
    by_cases below : source <+: p
    · have none : (d.relocate source target).tree.get? p = none := by
        cases found : (d.relocate source target).tree.get? p with
        | none => rfl
        | some e => exact absurd below (gone e found).1
      rw [none]
      split
      · rfl
      · rename_i other
        obtain ⟨rest, rfl⟩ := below
        have further : rest ≠ [] := by
          rintro rfl
          exact other (List.append_nil source)
        exact (belowSource rest further).symm
    · have other : p ≠ source := by
        rintro rfl
        exact below List.prefix_rfl
      rw [if_neg other]
      by_cases under : target <+: p
      · obtain ⟨rest, rfl⟩ := under
        have further : rest ≠ [] := by
          rintro rfl
          exact away (List.append_nil target)
        rw [sound.leaf notRoot.2 notDir further]
        cases found : (d.relocate source target).tree.get? (target ++ rest) with
        | none => rfl
        | some e =>
          rw [sound.leaf notRoot.2 notDir further] at gone
          exact absurd (gone e found).2 (by simp)
      · exact get?_relocate_of_apart below under

end Moves

/-! ### The ground below a root -/

/-- The root of some files: a path of which the first names lead to a directory, which is its base,
and the rest of its names. -/
structure Ground where
  rooted : Bool
  front : List String
  rest : List String
  base : Place

namespace Ground

def way (g : Ground) (l : List String) : String := Path.written g.rooted (g.front ++ l)

/-- Names that lead from the base towards the root or further. -/
def Near (g : Ground) (l : List String) : Prop := l <+: g.rest ∨ g.rest <+: l

def path (g : Ground) (names : List String) : String := g.way (g.rest ++ names)

def place (g : Ground) (names : List String) : Place := g.base ++ (g.rest ++ names)

/-- The ground is on a disk. The rest of the names leads through no link, there are no links below
the root, and no file there has a second name. -/
structure On (g : Ground) (d : Disk) : Prop where
  sound : d.Sound
  walked : IsWalked g.rooted (g.front.map String.toList)
  named : ∀ c ∈ g.rest, IsName c
  there : walk d.tree true maxLinks (if g.rooted then [] else d.cwd) g.front = .ok g.base
  isDir : HasDir d.tree g.base
  noLink : ∀ l target, l ≠ [] → g.Near l → d.tree.get? (g.base ++ l) ≠ some (.link target)
  single : ∀ p q body, g.place [] <+: p → d.tree.get? p = some (.file body) →
    d.tree.get? q = some (.file body) → q = p

variable {g : Ground} {d d' : Disk} {l names names' : List String} {place : Place} {follow : Bool}
  {content : ByteArray} {mode : Nat}

theorem near (g : Ground) (names : List String) : g.Near (g.rest ++ names) :=
  Or.inr (List.prefix_append _ names)

theorem Near.front {more : List String} (near : g.Near (l ++ more)) : g.Near l := by
  rcases near with before | after
  · exact Or.inl ((List.prefix_append l more).trans before)
  · exact List.prefix_or_prefix_of_prefix (List.prefix_append l more) after

theorem place_append (g : Ground) (names more : List String) :
    g.place (names ++ more) = g.place names ++ more := by
  simp [Ground.place]

theorem place_inj (same : g.place names = g.place names') : names = names' :=
  List.append_cancel_left (List.append_cancel_left same)

theorem place_ne_nil (further : names ≠ []) : g.place names ≠ [] := by
  simp [Ground.place, further]

theorem below (g : Ground) (names : List String) : g.place [] <+: g.place names := by
  rw [← List.nil_append names, place_append]
  exact List.prefix_append _ names

theorem length_place (g : Ground) (names : List String) :
    (g.place names).length = (g.place []).length + names.length := by
  rw [← List.nil_append names, place_append, List.length_append, List.nil_append]

namespace On

variable (on : g.On d)

include on

theorem noLinkAt (further : names ≠ []) (target : String) :
    d.tree.get? (g.place names) ≠ some (.link target) :=
  on.noLink _ target (by simp [further]) (g.near names)

theorem clear (near : g.Near l) : Clear d.tree follow g.base l := by
  rintro before after target rfl some found
  exact absurd found (on.noLink before target some near.front)

theorem components_append (components : ∀ c ∈ names, IsComponent c.toList) :
    ∀ c ∈ g.rest ++ names, IsComponent c.toList :=
  List.forall_mem_append.mpr ⟨fun c member => (on.named c member).1, components⟩

theorem isWalked (components : ∀ c ∈ l, IsComponent c.toList) :
    IsWalked g.rooted ((g.front ++ l).map String.toList) := by
  rw [List.map_append]
  exact on.walked.append (by simpa using components)

theorem locate_eq (follow : Bool) (components : ∀ c ∈ l, IsComponent c.toList) :
    d.locate follow (g.way l) =
      walk d.tree follow maxLinks (if g.rooted then [] else d.cwd) (g.front ++ l) := by
  have done := on.isWalked components
  have cleaned := locate_clean d follow (g.way l)
  rw [way, Path.clean_written done, startOf, Path.isAbs_written done, namesOf,
    Path.stepsOf_written done] at cleaned
  rw [way]
  simpa [Function.comp_def] using cleaned

theorem walk_way (follow : Bool) (further : l ≠ []) (components : ∀ c ∈ l, IsComponent c.toList) :
    ∃ links, d.locate follow (g.way l) = walk d.tree follow links g.base l := by
  obtain ⟨links, onward⟩ : ∃ links, walk d.tree follow maxLinks (if g.rooted then [] else d.cwd)
      (g.front ++ l) = walk d.tree follow links g.base l := walk_append (Or.inl further) on.there on.isDir
  exact ⟨links, (on.locate_eq follow components).trans onward⟩

theorem locate_way (near : g.Near l) (further : l ≠ [])
    (components : ∀ c ∈ l, IsComponent c.toList) (reached : d.locate follow (g.way l) = .ok place) :
    place = g.base ++ l ∧ HasDir d.tree (g.base ++ l).dropLast ∧ ∀ c ∈ l, IsName c := by
  obtain ⟨links, walked⟩ := on.walk_way follow further components
  rw [walked] at reached
  refine ⟨walk_straight components (on.clear near) reached, ?_,
    walk_named components (on.clear near) reached⟩
  obtain ⟨init, c, rfl⟩ := (List.eq_nil_or_concat' l).resolve_left further
  obtain ⟨middle, front, isDir⟩ := walk_front on.sound.inDir on.isDir (List.cons_ne_nil c []) reached
  rw [← List.append_assoc, List.dropLast_concat]
  have before := (List.forall_mem_append.mp components).1
  rwa [walk_straight before (on.clear near.front) front] at isDir

theorem locate (further : names ≠ []) (components : ∀ c ∈ names, IsComponent c.toList)
    (reached : d.locate follow (g.path names) = .ok place) :
    place = g.place names ∧ HasDir d.tree (g.place names).dropLast ∧ ∀ c ∈ names, IsName c := by
  obtain ⟨leads, inDir, named⟩ := on.locate_way (g.near names) (by simp [further])
    (on.components_append components) reached
  exact ⟨leads, inDir, fun c member => named c (List.mem_append_right _ member)⟩

theorem inDir_of_found (further : names ≠ []) {e : Entry}
    (found : d.tree.get? (g.place names) = some e) : HasDir d.tree (g.place names).dropLast := by
  obtain ⟨init, c, rfl⟩ := (List.eq_nil_or_concat' names).resolve_left further
  rw [place_append] at found ⊢
  rw [List.dropLast_concat]
  exact on.sound.inDir _ c e found

theorem locate_ok (further : names ≠ []) (named : ∀ c ∈ names, IsName c)
    (isDir : HasDir d.tree (g.place names).dropLast) :
    d.locate follow (g.path names) = .ok (g.place names) := by
  obtain ⟨links, walked⟩ := on.walk_way follow (l := g.rest ++ names) (by simp [further])
    (on.components_append fun c member => (named c member).1)
  rw [path, walked]
  obtain ⟨init, c, rfl⟩ := (List.eq_nil_or_concat' names).resolve_left further
  rw [place_append, List.dropLast_concat] at isDir
  have front : walk d.tree true links g.base (g.rest ++ init) = .ok (g.place init) := by
    by_cases none : g.rest ++ init = []
    · rw [none, walk, Ground.place, none, List.append_nil]
    · obtain ⟨mode, found⟩ := isDir.resolve_left (by simp [Ground.place, none])
      refine walk_present on.sound.inDir ?_ found (by simp)
      exact List.forall_mem_append.mpr
        ⟨on.named, fun c member => named c (List.mem_append_left _ member)⟩
  obtain ⟨links', onward⟩ : ∃ links', walk d.tree follow links g.base (g.rest ++ init ++ [c]) =
      walk d.tree follow links' (g.place init) [c] :=
    walk_append (Or.inl (List.cons_ne_nil c [])) front isDir
  rw [← List.append_assoc, onward, place_append]
  refine walk_last (named c (by simp)).enters fun target => ?_
  rw [← place_append]
  exact on.noLinkAt (by simp) target

theorem change (sound : d'.Sound) (cwd : d'.cwd = d.cwd) (kept : Keeps d.tree d'.tree)
    (links : ∀ p target, d'.tree.get? p = some (.link target) → d.tree.get? p = some (.link target))
    (single : ∀ p q body, g.place [] <+: p → d'.tree.get? p = some (.file body) →
      d'.tree.get? q = some (.file body) → q = p) : g.On d' where
  sound := sound
  walked := on.walked
  named := on.named
  there := cwd ▸ walk_keeps kept on.there on.isDir
  isDir := on.isDir.keeps kept
  noLink l target some near found := on.noLink l target some near (links _ target found)
  single := single

theorem withSerial (n : Nat) : g.On { d with serial := n } :=
  on.change ⟨on.sound.inDir, on.sound.numbered⟩ rfl (fun _ _ found _ => found) (fun _ _ => id) on.single

theorem setBody (body : Nat) (b : Body) : g.On (d.setBody body b) :=
  on.change ⟨on.sound.inDir, on.sound.numbered⟩ rfl (fun _ _ found _ => found) (fun _ _ => id) on.single

theorem insertDir (absent : d.tree.get? place = none) (inDir : HasDir d.tree place.dropLast)
    (mode : Nat) : g.On { d with tree := d.tree.insert place (.dir mode) } := by
  have old : ∀ p e, (d.tree.insert place (.dir mode)).get? p = some e → (∀ m, e ≠ .dir m) →
      d.tree.get? p = some e := by
    intro p e found notDir
    by_cases same : p = place
    · rw [same, Dict.get?_insert_self] at found
      exact absurd (Option.some.inj found).symm (notDir mode)
    · rwa [Dict.get?_insert_of_ne _ same] at found
  refine on.change (on.sound.insert absent inDir (by simp)) rfl
    (fun p e found _ => extends_insert absent p e found) (fun p target found => old p _ found (by simp)) ?_
  intro p q body below found found'
  exact on.single p q body below (old p _ found (by simp)) (old q _ found' (by simp))

theorem newFile (absent : d.tree.get? place = none) (inDir : HasDir d.tree place.dropLast)
    (content : ByteArray) (mode : Nat) : g.On (d.newFile place content mode) := by
  have files : ∀ p body, (d.newFile place content mode).tree.get? p = some (.file body) →
      p = place ∧ body = d.nextBody ∨ d.tree.get? p = some (.file body) := by
    intro p body found
    exact (get?_newFile_cases found).imp_left fun ⟨same, new⟩ => ⟨same, Entry.file.inj new⟩
  refine on.change (on.sound.newFile absent inDir content mode) rfl
    (fun p e found _ => extends_insert absent p e found) ?_ ?_
  · intro p target found
    rcases get?_newFile_cases found with ⟨-, new⟩ | old
    · cases new
    · exact old
  · intro p q body below found found'
    -- The number of the new body is not the number of an old one.
    rcases files p body found with ⟨rfl, rfl⟩ | old <;> rcases files q _ found' with ⟨rfl, new⟩ | old'
    · rfl
    · exact absurd (on.sound.numbered q _ old') (by simp)
    · exact absurd (on.sound.numbered p _ old) (by simp [new])
    · exact on.single p q body below old old'

theorem eraseFile (notDir : ∀ mode, d.tree.get? place ≠ some (.dir mode))
    (notLink : ∀ target, d.tree.get? place ≠ some (.link target)) :
    g.On { d with tree := d.tree.erase place } := by
  have old : ∀ p e, (d.tree.erase place).get? p = some e → d.tree.get? p = some e := by
    intro p e found
    by_cases same : p = place
    · rw [same, Dict.get?_erase_self] at found
      cases found
    · rwa [Dict.get?_erase_of_ne _ same] at found
  have kept : Keeps d.tree (d.tree.erase place) := by
    intro p e found notFile
    rw [Dict.get?_erase_of_ne _ ?_, found]
    rintro rfl
    cases e with
    | dir mode => exact notDir mode found
    | file body => exact notFile body rfl
    | link target => exact notLink target found
  refine on.change ⟨?_, ?_⟩ rfl kept (fun p target => old p _) ?_
  · intro p c e found
    exact (on.sound.inDir p c e (old _ e found)).keeps kept
  · intro p body found
    exact on.sound.numbered p body (old p _ found)
  · intro p q body below found found'
    exact on.single p q body below (old p _ found) (old q _ found')

theorem relocateFile {source target : Place} {body : Nat} (differ : source ≠ target)
    (below : g.place [] <+: source) (file : d.tree.get? source = some (.file body))
    (notRoot : source ≠ [] ∧ target ≠ []) (inDir : HasDir d.tree target.dropLast)
    (notDir : ∀ mode, d.tree.get? target ≠ some (.dir mode))
    (notLink : ∀ link, d.tree.get? target ≠ some (.link link)) :
    g.On (d.relocate source target) := by
  have moved := get?_relocate_file on.sound file notRoot notDir
  -- What is new is where the file is now, and that was where the file was.
  have old : ∀ p e, (d.relocate source target).tree.get? p = some e →
      p = target ∧ e = .file body ∨ p ≠ source ∧ p ≠ target ∧ d.tree.get? p = some e := by
    intro p e found
    rw [moved] at found
    split at found
    · rename_i here
      exact Or.inl ⟨here, (Option.some.inj found).symm⟩
    · rename_i away
      split at found
      · cases found
      · rename_i other
        exact Or.inr ⟨other, away, found⟩
  have kept : Keeps d.tree (d.relocate source target).tree := by
    intro p e found notFile
    rw [moved, if_neg, if_neg, found]
    · rintro rfl
      rw [file] at found
      exact notFile body (Option.some.inj found).symm
    · rintro rfl
      cases e with
      | dir mode => exact notDir mode found
      | file body => exact notFile body rfl
      | link link => exact notLink link found
  refine on.change ⟨?_, ?_⟩ rfl kept ?_ ?_
  · intro p c e found
    rcases old _ e found with ⟨rfl, -⟩ | ⟨-, -, there⟩
    · rw [List.dropLast_concat] at inDir
      exact inDir.keeps kept
    · exact (on.sound.inDir p c e there).keeps kept
  · intro p body' found
    rcases old p _ found with ⟨-, same⟩ | ⟨-, -, there⟩
    · cases same
      exact on.sound.numbered source body file
    · exact on.sound.numbered p body' there
  · intro p link found
    rcases old p _ found with ⟨-, same⟩ | ⟨-, -, there⟩
    · cases same
    · exact there
  · intro p q body' within found found'
    rcases old p _ found with ⟨rfl, same⟩ | ⟨leaves, away, there⟩ <;>
      rcases old q _ found' with ⟨rfl, same'⟩ | ⟨leaves', away', there'⟩
    · rfl
    · cases same
      exact absurd (on.single source q body below file there') leaves'
    · cases same'
      exact absurd (on.single source p body below file there) leaves
    · exact on.single p q body' within there there'

end On

end Ground

end Disk

end Taproom
