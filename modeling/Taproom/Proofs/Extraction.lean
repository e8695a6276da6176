import Mathlib.Data.List.Infix
import Taproom.Bottle.Keg
import Taproom.Proofs.Directories

/-!
Extracting archives. What an archive names is kept below a directory as long as no entry goes through
a link: then nothing outside the directory changes, whether the extraction succeeds or not.
-/

namespace Taproom

open Path (IsComponent)

namespace Disk

variable {names rest : List String} {base place : Place} {links : List String → Prop}
  {d d' d'' : Disk}

/-- A disk to which something was added below a place. What is new has plain names, and of these only
some may be links. Files below the place may hold something else. -/
structure Grown (base : Place) (links : List String → Prop) (d d' : Disk) : Prop where
  confined : ConfinedTo (base <+: ·) d d'
  kept : Extends d'.tree d.tree
  new : ∀ l e, d'.tree.get? (base ++ l) = some e → d.tree.get? (base ++ l) = some e ∨
    (∀ c ∈ l, IsComponent c.toList) ∧ ∀ target, e = .link target → links l
  sound : d.Sound → d'.Sound

namespace Grown

theorem refl (base : Place) (links : List String → Prop) (d : Disk) : Grown base links d d :=
  ⟨.refl _ d, fun _ _ => id, fun _ _ => Or.inl, id⟩

theorem trans (first : Grown base links d d') (second : Grown base links d' d'') :
    Grown base links d d'' where
  confined := first.confined.trans second.confined
  kept p e found := second.kept p e (first.kept p e found)
  new l e found := (second.new l e found).elim (first.new l e) Or.inr
  sound := second.sound ∘ first.sound

theorem mono {more : List String → Prop} (grown : Grown base links d d') (sub : ∀ l, links l → more l) :
    Grown base more d d' where
  confined := grown.confined
  kept := grown.kept
  new l e found := (grown.new l e found).imp_right fun ⟨components, isLink⟩ =>
    ⟨components, fun target same => sub l (isLink target same)⟩
  sound := grown.sound

theorem site (grown : Grown base links d d') (site : Site names base d) : Site names base d' :=
  site.mono (grown.sound site.sound) grown.kept

theorem insert (absent : d.tree.get? (base ++ rest) = none) (inDir : HasDir d.tree (base ++ rest).dropLast)
    (components : ∀ c ∈ rest, IsComponent c.toList) {e : Entry}
    (held : ∀ body, e = .file body → d.Holds (base <+: ·) body)
    (isLink : ∀ target, e = .link target → links rest) :
    Grown base links d { d with tree := d.tree.insert (base ++ rest) e } where
  confined := .insert (List.prefix_append base rest) held
  kept := extends_insert absent
  new l e' found := by
    by_cases same : base ++ l = base ++ rest
    · obtain rfl := List.append_cancel_left same
      rw [Dict.get?_insert_self, Option.some.injEq] at found
      exact Or.inr ⟨components, found ▸ isLink⟩
    · rw [Dict.get?_insert_of_ne _ same] at found
      exact Or.inl found
  sound sound := by
    refine sound.insert absent inDir ?_
    rintro body rfl
    obtain ⟨p, -, found⟩ := held body rfl
    exact sound.numbered p body found

theorem newFile (absent : d.tree.get? (base ++ rest) = none)
    (inDir : HasDir d.tree (base ++ rest).dropLast) (components : ∀ c ∈ rest, IsComponent c.toList)
    (content : ByteArray) (mode : Nat) : Grown base links d (d.newFile (base ++ rest) content mode) where
  confined := .newFile (List.prefix_append base rest) content mode
  kept := extends_insert absent
  new l e found := by
    rcases get?_newFile_cases found with ⟨same, rfl⟩ | old
    · obtain rfl := List.append_cancel_left same
      exact Or.inr ⟨components, by simp⟩
    · exact Or.inl old
  sound sound := sound.newFile absent inDir content mode

theorem setBody {body : Nat} (held : d.Holds (base <+: ·) body) (b : Body) :
    Grown base links d (d.setBody body b) :=
  ⟨.setBody held b, fun _ _ => id, fun _ _ => Or.inl, fun sound => ⟨sound.inDir, sound.numbered⟩⟩

theorem clear {follow : Bool} (grown : Grown base (fun _ => False) d d')
    (clear : Clear d.tree follow base rest) : Clear d'.tree follow base rest := by
  intro before after target split some found
  rcases grown.new before _ found with old | ⟨-, new⟩
  · exact clear before after target split some old
  · exact (new target rfl).elim

end Grown

namespace Site

variable {follow : Bool} {name : String}

variable (site : Site names base d)

include site

theorem components_append (components : ∀ c ∈ rest, IsComponent c.toList) :
    ∀ c ∈ names ++ rest, IsComponent c.toList :=
  List.forall_mem_append.mpr ⟨site.components, components⟩

theorem locate (further : rest ≠ [])
    (components : ∀ c ∈ rest, IsComponent c.toList) (clear : Clear d.tree follow base rest)
    (reached : d.locate follow (Path.ofComponents (names ++ rest)) = .ok place) :
    place = base ++ rest ∧ HasDir d.tree (base ++ rest).dropLast := by
  rw [locate_ofComponents d follow (site.components_append components)] at reached
  refine ⟨walk_below site.there site.isDir further components clear reached, ?_⟩
  obtain ⟨init, c, rfl⟩ := (List.eq_nil_or_concat' rest).resolve_left further
  rw [← List.append_assoc] at reached
  obtain ⟨middle, front, isDir⟩ :=
    walk_front site.sound.inDir (Or.inl rfl) (List.cons_ne_nil c []) reached
  rw [← List.append_assoc, List.dropLast_concat]
  by_cases none : init = []
  · subst none
    simpa using site.isDir
  · have before := (List.forall_mem_append.mp components).1
    rwa [← walk_below site.there site.isDir none before (clear.front (List.cons_ne_nil c [])) front]

theorem present (reached : d.locate false (Path.ofComponents names) = .ok place) :
    (∃ mode, d.entry? place = some (.dir mode)) ∨ ∃ target, d.entry? place = some (.link target) := by
  rw [locate_ofComponents d false site.components] at reached
  have other : (∀ target, d.entry? place ≠ some (.link target)) → place = base := by
    intro noLink
    have leads := walk_follow reached fun notRoot target found =>
      noLink target (by rwa [ entry?, if_neg notRoot])
    rw [site.there] at leads
    exact (Except.ok.inj leads).symm
  by_cases isLink : ∃ target, d.entry? place = some (.link target)
  · exact Or.inr isLink
  · left
    rw [other (not_exists.mp isLink)]
    exact entry?_of_hasDir site.isDir

theorem find :
    ∃ mode, d.find true (Path.ofComponents names) = .ok (base, .dir mode) := by
  obtain ⟨mode, found⟩ := entry?_of_hasDir site.isDir
  refine ⟨mode, (find_eq_ok_iff ..).mpr ⟨?_, found⟩⟩
  rw [locate_ofComponents d true site.components, site.there]

theorem makeDir (further : rest ≠ [])
    (components : ∀ c ∈ rest, IsComponent c.toList) (clear : Clear d.tree false base rest) {mode : Nat}
    (made : d.makeDir (Path.ofComponents (names ++ rest)) mode = .ok d') :
    Grown base links d d' := by
  have whole := site.components_append components
  obtain ⟨init, name, split⟩ := (List.eq_nil_or_concat' (names ++ rest)).resolve_left (by simp [further])
  rw [split] at made whole
  obtain ⟨place, reached, -, absent, inDir, rfl⟩ := makeDir_eq_ok
    (fun c member => whole c (List.mem_append_left _ member)) (whole name (by simp)) made
  rw [← split] at reached
  obtain rfl := walk_below site.there site.isDir further components clear reached
  exact .insert absent inDir components (by simp) (by simp)

theorem makeDirs (fuel : Nat)
    (components : ∀ c ∈ rest, IsComponent c.toList) (clear : Clear d.tree false base rest) (mode : Nat) :
    Grown base (fun _ => False) d
      ((Act.makeDirs fuel (Path.ofComponents (names ++ rest)) mode).run d).2 := by
  induction fuel generalizing rest with
  | zero => exact .refl base _ d
  | succ fuel ih =>
    rw [Act.run_makeDirs]
    split
    · exact .refl base _ d
    · exact .refl base _ d
    · rename_i reason missing
      obtain rfl | ⟨init, name, rfl⟩ := List.eq_nil_or_concat' rest
      · -- The directory is there, so the parents above it are not looked at.
        obtain ⟨mode, found⟩ := site.find
        rw [List.append_nil, found] at missing
        cases missing
      · have before := (List.forall_mem_append.mp components).1
        have parents : Grown base (fun _ => False) d ((Act.makeParents fuel
            (Path.ofComponents (names ++ (init ++ [name]))) mode).run d).2 := by
          rw [← List.append_assoc, Act.makeParents_ofComponents fuel _ (components name (by simp))]
          split
          · exact .refl base _ d
          · exact ih before (clear.front (List.cons_ne_nil name [])).of_follow
        rcases outcome : (Act.makeParents fuel
            (Path.ofComponents (names ++ (init ++ [name]))) mode).run d with ⟨(e | _), d'⟩
        · rw [outcome] at parents
          exact parents
        · rw [outcome] at parents
          dsimp only
          split
          · rename_i d'' made
            exact parents.trans
              ((parents.site site).makeDir (by simp) components (parents.clear clear) made)
          · split <;> exact parents

theorem makeParent_self (mode : Nat) :
    ((Act.makeDirAll (Path.dir (Path.ofComponents names)) mode).run d).2 = d := by
  rw [Act.makeDirAll]
  obtain rfl | ⟨init, name, rfl⟩ := List.eq_nil_or_concat' names
  · have root : Path.dir (Path.ofComponents []) = Path.ofComponents [] := by decide
    rw [root, Act.run_makeDirs, find_root]
  · have whole := site.components
    have there := site.there
    have before := (List.forall_mem_append.mp whole).1
    obtain ⟨parent, front, isDir⟩ :=
      walk_front site.sound.inDir (Or.inl rfl) (List.cons_ne_nil name []) there
    obtain ⟨mode', found⟩ := (Site.mk site.sound before front isDir).find
    rw [Path.dir_ofComponents before (whole name (by simp)), Act.run_makeDirs, found]

theorem makeParent (components : ∀ c ∈ rest, IsComponent c.toList)
    (clear : Clear d.tree false base rest) (mode : Nat) :
    Grown base (fun _ => False) d
      ((Act.makeDirAll (Path.dir (Path.ofComponents (names ++ rest))) mode).run d).2 := by
  obtain rfl | ⟨init, name, rfl⟩ := List.eq_nil_or_concat' rest
  · rw [List.append_nil, site.makeParent_self]
    exact .refl base _ d
  · have before := (List.forall_mem_append.mp components).1
    rw [← List.append_assoc, Path.dir_ofComponents (site.components_append before)
      (components name (by simp))]
    exact site.makeDirs _ before (clear.front (List.cons_ne_nil name [])).of_follow mode

theorem fresh (components : ∀ c ∈ rest, IsComponent c.toList) (clear : Clear d.tree false base rest)
    (reached : d.locate false (Path.ofComponents (names ++ rest)) = .ok place)
    (absent : d.entry? place = none) :
    place = base ++ rest ∧ d.tree.get? (base ++ rest) = none ∧ HasDir d.tree (base ++ rest).dropLast := by
  by_cases none : rest = []
  · subst none
    rw [List.append_nil] at reached
    rcases site.present reached with ⟨mode, found⟩ | ⟨target, found⟩ <;> simp [found] at absent
  · obtain ⟨rfl, inDir⟩ := site.locate none components clear reached
    exact ⟨rfl, by simpa [ entry?, none] using absent, inDir⟩

theorem putFile_self (content : ByteArray) (mode : Nat) :
    ((Act.putFile (Path.ofComponents names) content mode).run d).2 = d := by
  rw [Act.putFile, Act.run_change]
  cases written : d.write (Path.ofComponents names) content mode with
  | error reason => rfl
  | ok d' =>
    obtain ⟨place, located, outcome⟩ := write_eq_ok written
    obtain ⟨mode, found⟩ := site.find
    rw [find_eq_ok_iff, located, Except.ok.injEq] at found
    obtain ⟨rfl, isDir⟩ := found
    rcases outcome with ⟨body, mode', other, -⟩ | ⟨other, -⟩ <;> simp [isDir] at other

theorem putFile (components : ∀ c ∈ rest, IsComponent c.toList)
    (clear : Clear d.tree true base rest) (content : ByteArray) (mode : Nat) :
    Grown base links d ((Act.putFile (Path.ofComponents (names ++ rest)) content mode).run d).2 := by
  by_cases none : rest = []
  · rw [none, List.append_nil, site.putFile_self]
    exact .refl base links d
  · rw [Act.putFile, Act.run_change]
    cases written : d.write (Path.ofComponents (names ++ rest)) content mode with
    | error reason => exact .refl base links d
    | ok d' =>
      obtain ⟨place, located, outcome⟩ := write_eq_ok written
      obtain ⟨rfl, inDir⟩ := site.locate none components clear located
      rcases outcome with ⟨body, mode', present, rfl⟩ | ⟨absent, rfl⟩
      · exact .setBody ⟨_, List.prefix_append base rest, get?_of_entry?_file present⟩ _
      · exact .newFile (by simpa [ entry?, none] using absent) inDir components _ _

theorem symlink (components : ∀ c ∈ rest, IsComponent c.toList)
    (clear : Clear d.tree false base rest) (target : String) :
    Grown base (· = rest) d ((Act.symlink target (Path.ofComponents (names ++ rest))).run d).2 := by
  rw [Act.symlink, Act.run_change]
  cases made : d.makeLink target (Path.ofComponents (names ++ rest)) with
  | error reason => exact .refl base _ d
  | ok d' =>
    obtain ⟨place, located, absent, rfl⟩ := makeLink_eq_ok made
    obtain ⟨rfl, absent, inDir⟩ := site.fresh components clear located absent
    exact .insert absent inDir components (by simp) (fun _ _ => rfl)

theorem hardLink {source : List String} (components : ∀ c ∈ rest, IsComponent c.toList)
    (clear : Clear d.tree false base rest) (sourceComponents : ∀ c ∈ source, IsComponent c.toList)
    (sourceClear : Clear d.tree false base source) :
    Grown base (· = rest) d ((Act.hardLink (Path.ofComponents (names ++ source))
      (Path.ofComponents (names ++ rest))).run d).2 := by
  rw [Act.hardLink, Act.run_change]
  cases shared : d.share (Path.ofComponents (names ++ source)) (Path.ofComponents (names ++ rest)) with
  | error reason => exact .refl base _ d
  | ok d' =>
    obtain ⟨origin, e, place, found, notDir, located, absent, rfl⟩ := share_eq_ok shared
    obtain ⟨rfl, absent, inDir⟩ := site.fresh components clear located absent
    refine .insert absent inDir components ?_ (fun _ _ => rfl)
    rintro body rfl
    obtain ⟨reached, isFile⟩ := (find_eq_ok_iff ..).mp found
    by_cases none : source = []
    · subst none
      rw [List.append_nil] at reached
      rcases site.present reached with ⟨mode, other⟩ | ⟨target, other⟩ <;> simp [other] at isFile
    · obtain ⟨rfl, -⟩ := site.locate none sourceComponents sourceClear reached
      exact ⟨_, List.prefix_append base source, get?_of_entry?_file isFile⟩

end Site

end Disk

namespace Unpack

open Disk (namesOf Site Grown Clear)

variable {root name : String} {base : Disk.Place} {d : Disk}

theorem within_eq_ok (rooted : Path.isAbs root = true) {p : String} (allowed : within root name = .ok p) :
    ∃ rest, (∀ c ∈ rest, IsComponent c.toList) ∧ p = Path.ofComponents (namesOf root ++ rest) := by
  have nonempty : Path.clean root ≠ "" := by
    intro empty
    have rooted := Path.isAbs_clean root ▸ rooted
    rw [empty] at rooted
    exact absurd rooted (by decide)
  have joinRooted : Path.isAbs (Path.join [Path.clean root, name]) = true := by
    rw [Path.isAbs_join nonempty, Path.isAbs_clean, rooted]
  have joined : Path.join [Path.clean root, name] =
      Path.ofComponents (namesOf (Path.join [Path.clean root, name])) := by
    rw [namesOf, ← Path.clean_of_isAbs joinRooted, Path.clean_join ⟨_, List.mem_cons_self, nonempty⟩]
  have components := Disk.namesOf_components joinRooted
  have cleaned : Path.clean root = Path.ofComponents (namesOf root) := Path.clean_of_isAbs rooted
  simp only [within] at allowed
  generalize Path.join [Path.clean root, name] = q at allowed joined components
  split at allowed
  · cases allowed
  · rename_i inside
    obtain rfl := Except.ok.inj allowed
    by_cases same : q = Path.clean root
    · exact ⟨[], by simp, by rw [same, cleaned, List.append_nil]⟩
    · have starts : startsWith q (Path.clean root ++ "/") = true := by simpa [same] using inside
      rw [joined, cleaned] at starts
      obtain ⟨rest, split⟩ :=
        Path.names_of_startsWith (Disk.namesOf_components rooted) components starts
      refine ⟨rest, fun c member => components c ?_, by rw [← split, ← joined]⟩
      rw [split]
      exact List.mem_append_right _ member

/-- The names that lead from the root to what an archive calls `name`. -/
def relative? (root name : String) : Option (List String) :=
  (within root name).toOption.map fun p => (namesOf p).drop (namesOf root).length

theorem relative?_of_within (rooted : Path.isAbs root = true) {p : String}
    (allowed : within root name = .ok p) :
    ∃ rest, relative? root name = some rest ∧ (∀ c ∈ rest, IsComponent c.toList) ∧
      p = Path.ofComponents (namesOf root ++ rest) := by
  obtain ⟨rest, components, path⟩ := within_eq_ok rooted allowed
  have whole : ∀ c ∈ namesOf root ++ rest, IsComponent c.toList :=
    List.forall_mem_append.mpr ⟨Disk.namesOf_components rooted, components⟩
  have names : namesOf p = namesOf root ++ rest := by
    rw [path, Disk.namesOf_ofComponents whole]
  refine ⟨rest, ?_, components, path⟩
  rw [relative?, allowed, Except.toOption, Option.map_some, names, List.drop_left]

attribute [local irreducible] relative? within

def between (rest : List String) : List (List String) :=
  rest.inits.filter fun l => l ≠ [] ∧ l ≠ rest

theorem mem_between (rest l : List String) : l ∈ between rest ↔ l <+: rest ∧ l ≠ [] ∧ l ≠ rest := by
  simp [between]

/-- The places below the root that an entry goes through. A file counts itself: it is written where
it leads. -/
def passed (root : String) (e : Tar.Entry) : List (List String) :=
  match relative? root e.name with
  | none => []
  | some rest =>
    match e.kind with
    | .file => rest :: between rest
    | .hardLink => between rest ++ ((relative? root e.link).map between).getD []
    | _ => between rest

/-- Where an entry may put a link. -/
def linked? (root : String) (e : Tar.Entry) : Option (List String) :=
  match e.kind with
  | .symlink | .hardLink => relative? root e.name
  | _ => none

theorem clear_of_passed {tree : Dict (List String) Disk.Entry} {rest : List String} {follow : Bool}
    (noLink : ∀ l ∈ between rest, ∀ target, tree.get? (base ++ l) ≠ some (.link target))
    (ending : follow = true → ∀ target, tree.get? (base ++ rest) ≠ some (.link target)) :
    Clear tree follow base rest := by
  rintro before after target rfl some found
  by_cases last : after = []
  · subst last
    rw [List.append_nil] at ending
    refine ⟨rfl, ?_⟩
    by_contra follows
    exact ending (by simpa using follows) target found
  · have inside : before ∈ between (before ++ after) :=
      (mem_between ..).mpr ⟨List.prefix_append .., some, by simp [last]⟩
    exact absurd found (noLink before inside target)

theorem place_grown {names rest : List String} (site : Site names base d)
    (components : ∀ c ∈ rest, IsComponent c.toList) (clear : Clear d.tree true base rest)
    (content : Archive.Bytes) (mode : Nat) :
    Grown base (fun _ => False) d
      ((place (Path.ofComponents (names ++ rest)) content mode).run d).2 := by
  have parents := site.makeParent components clear.of_follow 0o755
  rw [place]
  apply Act.run_bind_rel (R := Grown base fun _ => False) Grown.trans parents
  intro _ d' outcome
  rw [outcome] at parents
  exact (parents.site site).putFile components (parents.clear clear) _ _

theorem place_self {names : List String} (site : Site names base d) (content : Archive.Bytes)
    (mode : Nat) : ((place (Path.ofComponents names) content mode).run d).2 = d := by
  have stays := site.makeParent_self 0o755
  rw [place, Act.run_bind]
  rcases outcome : (Act.makeDirAll (Path.dir (Path.ofComponents names)) 0o755).run d with
    ⟨(e | _), d'⟩
  · rw [outcome] at stays
    exact stays
  · rw [outcome] at stays
    obtain rfl : d' = d := stays
    exact site.putFile_self _ _

/-- What one entry does: it adds to the directory, and a link only where it says. -/
theorem placeEntry_grown (rooted : Path.isAbs root = true) (site : Site (namesOf root) base d)
    (e : Tar.Entry)
    (noLink : ∀ l ∈ passed root e, ∀ target, d.tree.get? (base ++ l) ≠ some (.link target)) :
    Grown base (fun l => linked? root e = some l) d ((placeEntry root e).run d).2 := by
  rw [placeEntry, Act.run_bind, Act.run_ofExcept]
  cases allowed : within root e.name with
  | error fault => exact .refl base _ d
  | ok target =>
    obtain ⟨rest, relative, components, rfl⟩ := relative?_of_within rooted allowed
    have clear : Clear d.tree false base rest := by
      refine clear_of_passed (fun l member => noLink l ?_) (by simp)
      rw [passed, relative]
      cases e.kind <;> simp [member]
    dsimp only
    cases kind : e.kind with
    | dir => exact (site.makeDirs _ components clear _).mono (by simp)
    | file =>
      have clear : Clear d.tree true base rest := by
        refine clear_of_passed (fun l member => noLink l ?_) (fun _ => noLink rest ?_)
        · simp [passed, relative, kind, member]
        · simp [passed, relative, kind]
      exact (place_grown site components clear _ _).mono (by simp)
    | symlink =>
      have made : linked? root e = some rest := by rw [linked?, kind]; exact relative
      have parents := site.makeParent components clear 0o755
      apply Act.run_bind_rel (R := Grown base fun l => linked? root e = some l) Grown.trans
        (parents.mono (by simp))
      intro _ d' outcome
      rw [outcome] at parents
      refine ((parents.site site).symlink components (parents.clear clear) _).mono ?_
      rintro l rfl
      exact made
    | hardLink =>
      have made : linked? root e = some rest := by rw [linked?, kind]; exact relative
      dsimp only
      rw [Act.run_bind, Act.run_ofExcept]
      cases linked : within root e.link with
      | error fault => exact .refl base _ d
      | ok source =>
        obtain ⟨from', origin, sourceComponents, rfl⟩ := relative?_of_within rooted linked
        have sourceClear : Clear d.tree false base from' := by
          refine clear_of_passed (fun l member => noLink l ?_) (by simp)
          simp [passed, relative, kind, origin, member]
        refine (site.hardLink components clear sourceComponents sourceClear).mono ?_
        rintro l rfl
        exact made
    | note => exact .refl base _ d
    | other flag => exact .refl base _ d

def carried? : Tar.Item → Option Tar.Entry
  | .entry e | .cut e _ => some e
  | .broken _ => none

/-- No entry of an archive goes through a link that an entry before it makes. -/
def Apart (root : String) (items : List Tar.Item) : Prop :=
  items.Pairwise fun i j => ∀ e ∈ carried? i, ∀ e' ∈ carried? j, ∀ l ∈ linked? root e,
    l ∉ passed root e'

instance (root : String) (items : List Tar.Item) : Decidable (Apart root items) :=
  inferInstanceAs (Decidable (List.Pairwise _ _))

/-- No entry of an archive goes through a link, neither one that lies below the place nor one that an
entry before it makes. -/
structure Straight (root : String) (base : Disk.Place) (tree : Dict (List String) Disk.Entry)
    (items : List Tar.Item) : Prop where
  initially : ∀ i ∈ items, ∀ e ∈ carried? i, ∀ l ∈ passed root e,
    ∀ target, tree.get? (base ++ l) ≠ some (.link target)
  afterwards : Apart root items

theorem placeItem_grown (rooted : Path.isAbs root = true) (site : Site (namesOf root) base d)
    (i : Tar.Item) (noLink : ∀ e ∈ carried? i, ∀ l ∈ passed root e,
      ∀ target, d.tree.get? (base ++ l) ≠ some (.link target)) :
    Grown base (fun l => ∃ e ∈ carried? i, linked? root e = some l) d ((placeItem root i).run d).2 := by
  cases i with
  | entry e =>
    have placed := placeEntry_grown rooted site e (noLink e rfl)
    exact placed.mono fun l made => ⟨e, rfl, made⟩
  | cut e f =>
    have placed := placeEntry_grown rooted site e (noLink e rfl)
    rw [placeItem]
    apply Act.run_bind_rel (R := Grown base _) Grown.trans
      (placed.mono fun l made => ⟨e, rfl, made⟩)
    intro _ d' _
    exact .refl base _ d'
  | broken f => exact .refl base _ d

theorem placeItems_cons (root : String) (i : Tar.Item) (rest : List Tar.Item) :
    placeItems root (i :: rest) = placeItem root i >>= fun _ => placeItems root rest := rfl

/-- What a whole archive does. The way of every entry is clear when its turn comes: a link that is
there by then was there before or comes from an entry before it. -/
theorem placeItems_grown (rooted : Path.isAbs root = true) {items : List Tar.Item}
    (site : Site (namesOf root) base d) (straight : Straight root base d.tree items) :
    Grown base (fun _ => True) d ((placeItems root items).run d).2 := by
  induction items generalizing d with
  | nil => exact .refl base _ d
  | cons i rest ih =>
    have placed := placeItem_grown rooted site i (straight.initially i List.mem_cons_self)
    rw [placeItems_cons]
    apply Act.run_bind_rel (R := Grown base _) Grown.trans (placed.mono fun _ _ => trivial)
    intro _ d' outcome
    rw [outcome] at placed
    obtain ⟨apart, later⟩ := List.pairwise_cons.mp straight.afterwards
    refine ih (placed.site site) ⟨?_, later⟩
    intro j member e' at' l through target found
    rcases placed.new l _ found with old | ⟨-, new⟩
    · exact straight.initially j (List.mem_cons_of_mem i member) e' at' l through target old
    · obtain ⟨e, from', made⟩ := new target rfl
      exact apart j member e from' e' at' l made through

end Unpack

end Taproom
